import Yolanda.Foundation.Ledger
import Yolanda.Lib.Buffer

/-! The C buffer over whole runs of its calls: a queue of bytes in a block of bounded size,
as long as no length is cut by an `int`. -/

namespace Yolanda.Lib

open Foundation

/-- A call of a function of `buffer.c`, with what it meets: `memory` says whether `realloc`
finds the memory it is asked for. -/
inductive BufferCall where
  | append (source : Option Pointer) (size : Int) (memory : Bool)
  | appendChar (char : Byte) (memory : Bool)
  | appendString (source : Option Pointer) (memory : Bool)
  | socketRead (received : Option Bytes) (memory : Bool)
  | readChar

/-- A buffer with the account of its calls. -/
abbrev BufferLedger := Ledger Buffer Byte

/-- What a call puts into the queue. -/
def BufferCall.supplied : BufferCall → Bytes
  | .append none _ _ => []
  | .append (some source) size _ => source.rest.take size.toNat
  | .appendChar char _ => [char]
  | .appendString none _ => []
  | .appendString (some source) _ => source.string
  | .socketRead none _ => []
  | .socketRead (some bytes) _ => bytes
  | .readChar => []

/-- One call. -/
def bufferStep (ledger : BufferLedger) (call : BufferCall) : Except Stop BufferLedger :=
  match call with
  | .append source size memory => do
    let buffer ← ledger.store.append source size memory
    return ledger.record Buffer.contents buffer call.supplied []
  | .appendChar char memory => do
    let buffer ← ledger.store.appendChar char memory
    return ledger.record Buffer.contents buffer call.supplied []
  | .appendString source memory => do
    let buffer ← ledger.store.appendString source memory
    return ledger.record Buffer.contents buffer call.supplied []
  | .socketRead received memory => do
    let (_, buffer) ← ledger.store.socketRead received memory
    return ledger.record Buffer.contents buffer call.supplied []
  | .readChar => do
    let (char, buffer) ← ledger.store.readChar
    return ledger.record Buffer.contents buffer [] [char]

/-- What a caller has to see to: memory for `realloc`, a block of at least `size` bytes, a
terminated string, a character to be read. `readv` delivers no more than it was given room
for. -/
def BufferCall.Permitted (ledger : BufferLedger) : BufferCall → Prop
  | .append source size memory => memory = true ∧ 0 ≤ size ∧ size < 2 ^ 31 ∧
      ∀ pointer, source = some pointer →
        0 ≤ pointer.offset ∧ pointer.offset + size ≤ pointer.object.length
  | .appendChar _ memory => memory = true
  | .appendString source memory => memory = true ∧
      ∀ pointer, source = some pointer → pointer.IsString
  | .socketRead received memory => memory = true ∧ ∀ bytes, received = some bytes →
      (bytes.length : Int) ≤ ledger.store.totalSize - ledger.store.writeIndex + initBufferSize
  | .readChar => ledger.store.readIndex < ledger.store.writeIndex

/-- An `int` does not cut the length of a string, or the result of `readv`. -/
def BufferCall.Uncut : BufferCall → Prop
  | .appendString (some source) _ => source.string.length < 2 ^ 32
  | .socketRead (some bytes) _ => bytes.length < 2 ^ 31
  | _ => True

/-- `total_size` -/
def Buffer.size (buffer : Buffer) : Nat := buffer.totalSize.toNat

/-- The indices are in order, the readable bytes are what was supplied and not yet consumed,
and the block is at most as large as the first one or twice the largest content. -/
structure IsBoundedQueue (ledger : BufferLedger) : Prop where
  valid : ledger.store.Valid
  balanced : ledger.Balanced Buffer.contents
  economical : ledger.Economical initBufferSize Buffer.size

/-- The account of a buffer that `buffer_new` returns. -/
def freshBuffer : BufferLedger :=
  .begin Buffer.contents .new

theorem freshBuffer_queue : IsBoundedQueue freshBuffer := by
  refine ⟨.new, Ledger.begin_balanced _ _, ?_⟩
  have size : Buffer.new.size = initBufferSize := rfl
  change Buffer.new.size ≤ _
  rw [size]
  exact Nat.le_max_left ..

section Step

variable {ledger next : BufferLedger} {call : BufferCall}

theorem IsBoundedQueue.appended (queue : IsBoundedQueue ledger) {bytes : Bytes} {filled : Buffer}
    (appended : ledger.store.Appended bytes filled) :
    IsBoundedQueue (ledger.record Buffer.contents filled bytes []) := by
  refine ⟨appended.valid, queue.balanced.record appended.contents.symm,
    queue.economical.record ?_⟩
  rcases appended.grown with equal | twice
  · exact .inl (Nat.le_of_eq (congrArg Int.toNat equal))
  · right
    change filled.totalSize.toNat ≤ _
    omega

/-- A call that appends goes well, or the bytes would be too many for the block. -/
private theorem step_appends (queue : IsBoundedQueue ledger) {bytes : Bytes}
    {result : Except Stop Buffer} {size : Int} (width : size = bytes.length)
    (outcome : (∃ filled, result = .ok filled ∧ ledger.store.Appended bytes filled) ∨
      result = .error .overflow ∧ ledger.store.Overflows size)
    (step : bufferStep ledger call = result.map
      fun filled => ledger.record Buffer.contents filled bytes []) :
    (∃ next, bufferStep ledger call = .ok next ∧ IsBoundedQueue next) ∨
      (∃ stop, bufferStep ledger call = .error stop) ∧
        2 ^ 30 ≤ ledger.store.contents.length + bytes.length := by
  rcases outcome with ⟨filled, success, appended⟩ | ⟨fails, tight, large⟩
  · refine .inl ⟨_, ?_, queue.appended appended⟩
    rw [step, success]
    rfl
  · refine .inr ⟨⟨.overflow, ?_⟩, ?_⟩
    · rw [step, fails]
      rfl
    · omega

private theorem step_appendString (queue : IsBoundedQueue ledger) {source : Pointer}
    (isString : source.IsString) (uncut : source.string.length < 2 ^ 32) :
    (∃ next, bufferStep ledger (.appendString (some source) true) = .ok next ∧
        IsBoundedQueue next) ∨
      (∃ stop, bufferStep ledger (.appendString (some source) true) = .error stop) ∧
        2 ^ 30 ≤ ledger.store.contents.length + source.string.length := by
  have valid := queue.valid
  by_cases short : source.string.length < 2 ^ 31
  · exact step_appends queue rfl (valid.appendString isString short) rfl
  · have negative : intOfSize source.string.length < 0 := by
      obtain ⟨wraps, whole, least, most⟩ := intOfSize_wraps source.string.length
      omega
    have fails := valid.appendString_negative isString negative true
    refine .inr ⟨⟨.memory, ?_⟩, ?_⟩
    · simp only [bufferStep, fails]
      rfl
    · omega

private theorem step_socketRead (queue : IsBoundedQueue ledger) {bytes : Bytes}
    (uncut : bytes.length < 2 ^ 31) :
    (∃ next, bufferStep ledger (.socketRead (some bytes) true) = .ok next ∧
        IsBoundedQueue next) ∨
      (∃ stop, bufferStep ledger (.socketRead (some bytes) true) = .error stop) ∧
        2 ^ 30 ≤ ledger.store.contents.length + bytes.length := by
  have valid := queue.valid
  rcases valid.socketRead uncut with ⟨filled, success, appended⟩ | ⟨fails, tight, large⟩
  · refine .inl ⟨_, ?_, queue.appended appended⟩
    simp only [bufferStep, success, ok_bind]
    rfl
  · refine .inr ⟨⟨.overflow, ?_⟩, ?_⟩
    · simp only [bufferStep, fails]
      rfl
    · omega

private theorem step_readChar (queue : IsBoundedQueue ledger)
    (filled : ledger.store.readIndex < ledger.store.writeIndex) :
    ∃ next, bufferStep ledger .readChar = .ok next ∧ IsBoundedQueue next := by
  have valid := queue.valid
  have width := valid.length_contents
  cases contents : ledger.store.contents with
  | nil =>
    rw [contents, List.length_nil] at width
    omega
  | cons head tail =>
    obtain ⟨rest, success, kept, remains, total⟩ := valid.readChar contents
    refine ⟨ledger.record Buffer.contents rest [] [head], ?_, kept, ?_, ?_⟩
    · simp only [bufferStep, success, ok_bind]
      rfl
    · refine queue.balanced.record ?_
      rw [contents, remains]
      exact List.append_nil _
    · exact queue.economical.record (.inl (Nat.le_of_eq (congrArg Int.toNat total)))

/-- A permitted call whose length is not cut goes well, or the bytes it is given are too
many for an `int`. -/
theorem IsBoundedQueue.step (queue : IsBoundedQueue ledger) (permitted : call.Permitted ledger)
    (uncut : call.Uncut) :
    (∃ next, bufferStep ledger call = .ok next ∧ IsBoundedQueue next) ∨
      (∃ stop, bufferStep ledger call = .error stop) ∧
        2 ^ 30 ≤ ledger.store.contents.length + call.supplied.length := by
  have valid := queue.valid
  have unchanged : IsBoundedQueue (ledger.record Buffer.contents ledger.store [] []) :=
    queue.appended ⟨valid, (List.append_nil _).symm, .inl rfl⟩
  cases call with
  | append source size memory =>
    obtain ⟨rfl, positive, small, within⟩ := permitted
    cases source with
    | none => exact .inl ⟨_, rfl, unchanged⟩
    | some source =>
      obtain ⟨start, inside⟩ := within source rfl
      have held := Pointer.read_eq start (by omega : source.offset.toNat + size.toNat ≤ _)
      have width : ((source.rest.take size.toNat).length : Int) = size := by
        rw [Pointer.read_length held]
        omega
      exact step_appends queue width.symm (valid.append positive small held width) rfl
  | appendChar char memory =>
    cases permitted
    exact step_appends queue rfl (valid.appendChar char) rfl
  | appendString source memory =>
    obtain ⟨rfl, terminated⟩ := permitted
    cases source with
    | none => exact .inl ⟨_, rfl, unchanged⟩
    | some source =>
      exact step_appendString queue (terminated source rfl) uncut
  | socketRead received memory =>
    obtain ⟨rfl, fits⟩ := permitted
    cases received with
    | none =>
      refine .inl ⟨_, ?_, unchanged⟩
      simp only [bufferStep, Buffer.socketRead, valid.writeableSize, ok_bind]
      rfl
    | some bytes => exact step_socketRead queue uncut
  | readChar => exact .inl (step_readChar queue permitted)

end Step

/-- As long as no length is cut, a buffer that has been given memory is a bounded queue in
every state it gets to, and nothing overflows while less than `2 ^ 30` bytes are held. -/
theorem buffer_bounded_queue {calls : List BufferCall}
    (permitted : Along bufferStep (fun ledger call => call.Permitted ledger) freshBuffer calls)
    (uncut : ∀ call ∈ calls, call.Uncut) :
    (∀ before final, before <+: calls → run bufferStep freshBuffer before = .ok final →
      IsBoundedQueue final) ∧
    (Along bufferStep (fun ledger call =>
        ledger.store.contents.length + call.supplied.length < 2 ^ 30) freshBuffer calls →
      ∃ final, run bufferStep freshBuffer calls = .ok final) := by
  have both := permitted.and (Along.of_forall (fun _ => uncut) freshBuffer)
  constructor
  · intro before final start success
    refine run_invariant IsBoundedQueue ?_ freshBuffer_queue (both.of_prefix start) success
    intro ledger call next queue met taken
    rcases queue.step met.1 met.2 with ⟨other, again, kept⟩ | ⟨⟨stop, fails⟩, _⟩
    · cases taken.symm.trans again
      exact kept
    · cases taken.symm.trans fails
  · intro low
    obtain ⟨final, success, _⟩ := run_succeeds IsBoundedQueue (fun ledger call queue met => by
      rcases queue.step met.1.1 met.1.2 with well | ⟨_, high⟩
      · exact well
      · exact absurd met.2 (Nat.not_lt.mpr high)) freshBuffer_queue (both.and low)
    exact ⟨final, success⟩

/-- The call of `buffer_append_string` for two bytes. -/
def sampleCall : BufferCall :=
  .appendString (some ⟨[101, 102, 0, 103], 0⟩) true

theorem sampleCall_supplied : sampleCall.supplied.length = 2 := by decide

theorem buffer_bounded_sample :
    ∃ final, run bufferStep freshBuffer [sampleCall] = .ok final ∧ IsBoundedQueue final := by
  have permitted : sampleCall.Permitted freshBuffer := by
    refine ⟨rfl, fun pointer same => ?_⟩
    cases same
    exact ⟨by decide, by decide⟩
  have uncut : ∀ call ∈ [sampleCall], call.Uncut := by
    intro call member
    rw [List.mem_singleton.mp member]
    have two := sampleCall_supplied
    change sampleCall.supplied.length < 2 ^ 32
    omega
  have low : freshBuffer.store.contents.length + sampleCall.supplied.length < 2 ^ 30 := by
    rw [sampleCall_supplied]
    have empty : freshBuffer.store.contents.length = 0 := by decide
    omega
  have along : Along bufferStep (fun ledger call => call.Permitted ledger) freshBuffer
      [sampleCall] := ⟨permitted, fun _ _ => trivial⟩
  have queue := buffer_bounded_queue along uncut
  obtain ⟨final, success⟩ := queue.2 ⟨low, fun _ _ => trivial⟩
  exact ⟨final, success, queue.1 _ final List.prefix_rfl success⟩

/-- A string of `length` letters, as a C string. -/
def letters (length : Nat) : Pointer :=
  ⟨List.replicate length 97 ++ [0], 0⟩

theorem letters_string (length : Nat) : (letters length).string = List.replicate length 97 := by
  have front : (List.replicate length (97 : Byte) ++ [0]).takeWhile (· ≠ 0) =
      List.replicate length 97 ++ [0].takeWhile (· ≠ 0) :=
    List.takeWhile_append_of_pos fun byte member => by simp [List.eq_of_mem_replicate member]
  exact front.trans (List.append_nil _)

theorem letters_isString (length : Nat) : (letters length).IsString :=
  ⟨Int.le_refl 0, List.mem_append_right _ (List.mem_singleton_self 0)⟩

/-- A string whose length is a multiple of `2 ^ 32` is taken for the empty one. -/
theorem string_lost {length : Nat} (zero : intOfSize length = 0) (filled : 0 < length) :
    ∃ final, run bufferStep freshBuffer [.appendString (some (letters length)) true] = .ok final ∧
      ¬ IsBoundedQueue final := by
  have size : (letters length).string.length = length := by
    rw [letters_string, List.length_replicate]
  have held : (letters length).read (0 : Int).toNat = .ok [] :=
    Pointer.read_eq (Int.le_refl 0) (Nat.zero_le _)
  rcases Buffer.Valid.new.append (Int.le_refl 0) (by decide) held rfl with
    ⟨next, success, appended⟩ | ⟨_, tight, large⟩
  · have step : bufferStep freshBuffer (.appendString (some (letters length)) true) =
        .ok (freshBuffer.record Buffer.contents next (letters length).string []) := by
      change (Buffer.new.appendString (some (letters length)) true).map _ = _
      rw [Buffer.appendString, Pointer.strlen_eq (letters_isString length), ok_bind, size, zero,
        success]
      rfl
    refine ⟨_, run_cons step [], ?_⟩
    intro queue
    have whole := congrArg List.length queue.balanced.whole
    have empty : next.contents = [] := appended.contents
    change (_ ++ (letters length).string).length = ([] ++ [] ++ next.contents).length at whole
    rw [empty, List.length_append, size] at whole
    simp at whole
    omega
  · have total : Buffer.new.totalSize = 65536 := rfl
    omega

/-- A string of `2 ^ 32` bytes is dropped without a word. -/
theorem long_string_lost :
    Along bufferStep (fun ledger call => call.Permitted ledger) freshBuffer
        [.appendString (some (letters (2 ^ 32))) true] ∧
      ∃ final, run bufferStep freshBuffer [.appendString (some (letters (2 ^ 32))) true] =
        .ok final ∧ ¬ IsBoundedQueue final := by
  have permitted : BufferCall.Permitted freshBuffer
      (.appendString (some (letters (2 ^ 32))) true) := by
    refine ⟨rfl, fun pointer same => ?_⟩
    cases same
    exact letters_isString _
  have zero : intOfSize (2 ^ 32) = 0 := by decide
  exact ⟨⟨permitted, fun _ _ => trivial⟩, string_lost zero (by omega)⟩

end Yolanda.Lib
