import Yolanda.Lib.LineReader

/-! `read_line` of the C library, which reads byte by byte, with a look ahead behind a carriage
return, from a socket that blocks and does not fail. -/

namespace Yolanda.Lib

open Foundation

/-- `'\r'` -/
def carriageReturn : Byte := 13

/-- The variables of `read_line`, and the bytes still to be received. -/
structure EndingScan where
  stream : Bytes
  c : Byte
  i : Nat
  buf : Cells Byte

/-- `buf[i] = c; i++` -/
def EndingScan.store (scan : EndingScan) (c : Byte) (stream : Bytes) : EndingScan where
  stream := stream
  c := c
  i := scan.i + 1
  buf := scan.buf.put scan.i c

/-- The loop of `read_line`. The second `recv` only peeks, the third takes the newline that was
seen. -/
def readLineLoop (size : Int) : Loop EndingScan Fault where
  done scan := decide (¬ ((scan.i : Int) < size - 1 ∧ scan.c ≠ newline))
  body scan :=
    match scan.stream with
    | [] => .ok { scan with c := newline }
    | c :: rest =>
      if c = carriageReturn then
        match rest with
        | [] => .ok (scan.store newline [])
        | peeked :: behind =>
          if peeked = newline then .ok (scan.store newline behind)
          else .ok (scan.store newline (peeked :: behind))
      else .ok (scan.store c rest)
  unfinished := .unfinished

/-- What a call of `read_line` returns, with what it leaves. -/
structure EndingCall where
  returned : Nat
  stream : Bytes
  buf : Cells Byte

/-- `read_line` -/
def readLine (stream : Bytes) (buf : Cells Byte) (size : Int) : Except Fault EndingCall := do
  let final ← (readLineLoop size).run (stream.length + 1) ⟨stream, 0, 0, buf⟩
  return ⟨final.i, final.stream, final.buf.put final.i 0⟩

/-- The bytes that a call has stored, as its caller reads them. -/
def EndingCall.stored (call : EndingCall) : Except Fault Bytes :=
  match (call.buf.cells.take call.returned).mapM id with
  | some bytes => .ok bytes
  | none => .error .memory

/-- The bytes stored by successive calls until one returns 0. -/
def readWhole (size : Int) : Nat → Bytes → Cells Byte → Except Fault Bytes
  | 0, _, _ => .error .unfinished
  | calls + 1, stream, buf => do
    let call ← readLine stream buf size
    if call.returned = 0 then return []
    else
      let bytes ← call.stored
      let more ← readWhole size calls call.stream call.buf
      return bytes ++ more

/-- The stream with a newline for every carriage return, alone or with a newline. -/
def normalizeEndings : Bytes → Bytes
  | [] => []
  | c :: rest =>
    if c = carriageReturn then
      match rest with
      | [] => [newline]
      | next :: behind =>
        if next = newline then newline :: normalizeEndings behind
        else newline :: normalizeEndings (next :: behind)
    else c :: normalizeEndings rest

theorem normalizeEndings_last : normalizeEndings [carriageReturn] = [newline] := rfl

theorem normalizeEndings_pair (behind : Bytes) :
    normalizeEndings (carriageReturn :: newline :: behind) = newline :: normalizeEndings behind := by
  rw [normalizeEndings.eq_def]
  simp only [if_true]

theorem normalizeEndings_carriage {next : Byte} (other : next ≠ newline) (behind : Bytes) :
    normalizeEndings (carriageReturn :: next :: behind) =
      newline :: normalizeEndings (next :: behind) := by
  rw [normalizeEndings.eq_def]
  simp only [if_true, if_neg other]

theorem normalizeEndings_cons {c : Byte} (other : c ≠ carriageReturn) (rest : Bytes) :
    normalizeEndings (c :: rest) = c :: normalizeEndings rest := by
  rw [normalizeEndings.eq_def]
  simp only [if_neg other]

/-- A call that stores the text, stays inside of the buffer, and stops at a newline, at a full
buffer or at the end of the stream. -/
structure EndingSound (size : Int) (stream : Bytes) (buf : Cells Byte) (text : Bytes)
    (call : EndingCall) : Prop where
  returned : call.returned = text.length
  fits : (text.length : Int) ≤ size - 1
  stored : call.buf = buf.withFront (text ++ [0])
  normal : normalizeEndings stream = text ++ normalizeEndings call.stream
  first : newline ∉ text.dropLast
  stops : text.getLast? = some newline ∨ (text.length : Int) = size - 1 ∨ call.stream = []

/-- What the loop of `read_line` has made of the bytes it has taken. -/
structure Copied (size : Int) (stream : Bytes) (buf : Cells Byte) (text : Bytes)
    (scan : EndingScan) : Prop where
  stored : scan.buf = buf.putAll 0 text
  number : scan.i = text.length
  fits : (text.length : Int) ≤ size - 1
  normal : normalizeEndings stream = text ++ normalizeEndings scan.stream
  going : scan.c ≠ newline → newline ∉ text
  stopped : scan.c = newline →
    newline ∉ text.dropLast ∧ (text.getLast? = some newline ∨ scan.stream = [])

/-- The number of rounds that the loop can still make. -/
def EndingScan.measure (scan : EndingScan) : Nat :=
  scan.stream.length + if scan.c = newline then 0 else 1

theorem EndingScan.measure_le (scan : EndingScan) : scan.measure ≤ scan.stream.length + 1 := by
  unfold EndingScan.measure
  split <;> omega

section ReadLine

variable {size : Int} {stream : Bytes} {buf : Cells Byte} {text rest : Bytes} {scan : EndingScan}
variable {c : Byte}

/-- A byte more, with what `normalizeEndings` makes of the stream in front of it. -/
theorem Copied.store (copied : Copied size stream buf text scan) (open' : scan.c ≠ newline)
    (room : (scan.i : Int) < size - 1) (front : normalizeEndings scan.stream = c :: normalizeEndings rest) :
    Copied size stream buf (text ++ [c]) (scan.store c rest) := by
  have clear := copied.going open'
  have number := copied.number
  constructor
  · rw [EndingScan.store, Cells.putAll_append, Nat.zero_add, copied.stored, number]
    rfl
  · rw [List.length_append, ← number]
    rfl
  · rw [List.length_append, List.length_singleton]
    omega
  · rw [copied.normal, front, List.append_assoc]
    rfl
  · intro other
    rw [List.mem_append, List.mem_singleton, not_or]
    exact ⟨clear, Ne.symm other⟩
  · intro same
    have last : c = newline := same
    rw [List.dropLast_concat, List.getLast?_concat, last]
    exact ⟨clear, .inl rfl⟩

theorem readLineLoop_advance (copied : ∃ text, Copied size stream buf text scan)
    (running : (readLineLoop size).done scan = false) :
    ∃ next, (readLineLoop size).body scan = .ok next ∧
      (∃ text, Copied size stream buf text next) ∧ next.measure < scan.measure := by
  obtain ⟨text, copied⟩ := copied
  obtain ⟨room, open'⟩ : (scan.i : Int) < size - 1 ∧ scan.c ≠ newline := by
    simpa [readLineLoop] using running
  have further : ∀ {c : Byte} {rest : Bytes}, rest.length < scan.stream.length →
      (scan.store c rest).measure < scan.measure := by
    intro c rest shorter
    have most := (scan.store c rest).measure_le
    have whole : scan.measure = scan.stream.length + 1 := by rw [EndingScan.measure, if_neg open']
    have length : (scan.store c rest).stream.length = rest.length := rfl
    omega
  simp only [readLineLoop]
  cases left : scan.stream with
  | nil =>
    refine ⟨_, rfl, ⟨text, copied.stored, copied.number, copied.fits, ?_, ?_, ?_⟩, ?_⟩
    · exact copied.normal.trans (by rw [left])
    · exact fun other => absurd rfl other
    · intro _
      exact ⟨fun member => copied.going open' (List.dropLast_subset _ member), .inr rfl⟩
    · simp [EndingScan.measure, open']
  | cons c rest =>
    rw [left] at further
    have moves := fun {c : Byte} {rest : Bytes} => @Copied.store size stream buf text rest scan c
      copied open' room
    rw [left] at moves
    dsimp only
    by_cases carriage : c = carriageReturn
    · subst carriage
      rw [if_pos rfl]
      cases rest with
      | nil => exact ⟨_, rfl, ⟨_, moves normalizeEndings_last⟩, further (Nat.lt_succ_self _)⟩
      | cons peeked behind =>
        dsimp only
        by_cases pair : peeked = newline
        · subst pair
          rw [if_pos rfl]
          refine ⟨_, rfl, ⟨_, moves (normalizeEndings_pair behind)⟩, further ?_⟩
          simp only [List.length_cons]
          omega
        · rw [if_neg pair]
          exact ⟨_, rfl, ⟨_, moves (normalizeEndings_carriage pair behind)⟩,
            further (Nat.lt_succ_self _)⟩
    · rw [if_neg carriage]
      exact ⟨_, rfl, ⟨_, moves (normalizeEndings_cons carriage rest)⟩,
        further (Nat.lt_succ_self _)⟩

/-- A call of `read_line` returns, and is sound. -/
theorem readLine_sound (large : 2 ≤ size) (room : size ≤ buf.cells.length) (stream : Bytes) :
    ∃ call text, readLine stream buf size = .ok call ∧ EndingSound size stream buf text call := by
  have start : Copied size stream buf [] ⟨stream, 0, 0, buf⟩ := by
    refine ⟨rfl, rfl, ?_, rfl, fun _ => List.not_mem_nil, ?_⟩
    · rw [List.length_nil]
      omega
    · intro same
      cases same
  obtain ⟨final, result, ⟨text, copied⟩, exits⟩ := Loop.run_total _ EndingScan.measure
    (fun scan => readLineLoop_advance) ⟨[], start⟩ (Nat.le_refl _)
  have run : (readLineLoop size).run (stream.length + 1) ⟨stream, 0, 0, buf⟩ = .ok final := result
  have number := copied.number
  have fits := copied.fits
  refine ⟨_, text, bind_of_ok run _, number, fits, ?_, copied.normal, ?_, ?_⟩
  · have stored : final.buf.put final.i 0 = buf.putAll 0 (text ++ [0]) := by
      rw [Cells.putAll_append, Nat.zero_add, copied.stored, number]
      rfl
    apply stored.trans (Cells.putAll_zero _)
    rw [List.length_append, List.length_singleton]
    omega
  · by_cases same : final.c = newline
    · exact (copied.stopped same).1
    · exact fun member => copied.going same (List.dropLast_subset _ member)
  · by_cases same : final.c = newline
    · rcases (copied.stopped same).2 with last | ended
      · exact .inl last
      · exact .inr (.inr ended)
    · have full : ¬ (final.i : Int) < size - 1 := by simpa [readLineLoop, same] using exits
      exact .inr (.inl (by omega))

/-- The caller finds the text in the buffer, and the block is still whole. -/
theorem EndingSound.stored_eq {call : EndingCall} (sound : EndingSound size stream buf text call)
    (room : size ≤ buf.cells.length) :
    call.stored = .ok text ∧ call.buf.cells.length = buf.cells.length := by
  have fits := sound.fits
  have whole : (call.buf.cells.take call.returned).mapM id = some text := by
    have front : call.buf.cells.take call.returned = text.map some := by
      rw [sound.stored, sound.returned, Cells.withFront, List.map_append, List.append_assoc]
      exact List.take_left' (List.length_map _)
    have filled := Cells.whole_filled text
    rw [Cells.whole, Cells.filled, List.replicate_zero, List.append_nil] at filled
    rw [front, filled]
  refine ⟨?_, ?_⟩
  · rw [EndingCall.stored, whole]
  · rw [sound.stored]
    apply Cells.length_withFront
    rw [List.length_append, List.length_singleton]
    omega

/-- Calls that are made until one returns 0 store the stream with its line endings made one. -/
theorem readWhole_normalizes (large : 2 ≤ size) (room : size ≤ buf.cells.length) (stream : Bytes)
    {calls : Nat} (enough : (normalizeEndings stream).length < calls) :
    readWhole size calls stream buf = .ok (normalizeEndings stream) := by
  induction calls generalizing stream buf with
  | zero => omega
  | succ calls ih =>
    obtain ⟨call, text, result, sound⟩ := readLine_sound large room stream
    obtain ⟨stored, same⟩ := sound.stored_eq room
    have split := sound.normal
    rw [readWhole, result, ok_bind]
    by_cases empty : text = []
    · have zero : call.returned = 0 := by rw [sound.returned, empty]; rfl
      have ended : call.stream = [] := by
        have stops := sound.stops
        rw [empty] at stops
        rcases stops with last | full | ended
        · cases last
        · rw [List.length_nil] at full
          omega
        · exact ended
      rw [if_pos zero, split, empty, ended]
      rfl
    · have nonzero : call.returned ≠ 0 := by
        rw [sound.returned]
        exact fun zero => empty (List.eq_nil_of_length_eq_zero zero)
      have shorter : (normalizeEndings call.stream).length < calls := by
        have length := congrArg List.length split
        rw [List.length_append, ← sound.returned] at length
        omega
      have larger : size ≤ call.buf.cells.length := by rwa [same]
      have later := ih larger call.stream shorter
      rw [if_neg nonzero, stored, ok_bind, later, ok_bind, split]
      rfl

end ReadLine

/-- Every call of `read_line` stores a text inside of its buffer and stops where it has to, and
the texts of the calls up to the first that returns 0 are the stream with every carriage return,
alone or with a newline, made a newline. -/
theorem line_endings_normalized {size : Int} (large : 2 ≤ size) (stream : Bytes)
    {buf : Cells Byte} (room : size ≤ buf.cells.length) :
    (∃ call text, readLine stream buf size = .ok call ∧ EndingSound size stream buf text call) ∧
      ∃ calls, readWhole size calls stream buf = .ok (normalizeEndings stream) :=
  ⟨readLine_sound large room stream, _, readWhole_normalizes large room stream (Nat.lt_succ_self _)⟩

/-- A stream with both kinds of carriage returns, in a small buffer. -/
theorem line_endings_sample :
    (∃ call text, readLine [97, 13, 10, 98, 13] (.allocate 3) 3 = .ok call ∧
      EndingSound 3 [97, 13, 10, 98, 13] (.allocate 3) text call) ∧
    ∃ calls, readWhole 3 calls [97, 13, 10, 98, 13] (.allocate 3) = .ok [97, 10, 98, 10] := by
  have room : (3 : Int) ≤ ((Cells.allocate 3 : Cells Byte).cells.length : Int) := by decide
  have normal : normalizeEndings [97, 13, 10, 98, 13] = [97, 10, 98, 10] := by decide
  rw [← normal]
  exact line_endings_normalized (by decide) _ room

end Yolanda.Lib
