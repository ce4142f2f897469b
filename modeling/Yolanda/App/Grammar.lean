import Yolanda.App.ParserProgress

/-! The texts the parser is meant to accept, and the ones it does. It takes the first line
without `": "` for the empty line and consumes two bytes of it. -/

namespace Yolanda.App

open Foundation

/-- Header lines with `": "`, of lengths that fit, and an empty line behind them. -/
inductive HeaderSection (fits : Nat → Prop) : Bytes → Prop where
  | empty : HeaderSection fits crlf
  | line {line rest : Bytes} (clear : ¬ crlf <:+: line) (fit : fits line.length)
      (colon : colonSpace <:+: line) (others : HeaderSection fits rest) :
      HeaderSection fits (line ++ crlf ++ rest)

/-- A request line with two spaces and a header section, nothing else. -/
inductive RequestMessage (fits : Nat → Prop) : Bytes → Prop where
  | line {line method url version rest : Bytes} (clear : ¬ crlf <:+: line)
      (fit : fits line.length) (split : SplitsAs line method url version)
      (headers : HeaderSection fits rest) : RequestMessage fits (line ++ crlf ++ rest)

/-- The grammar puts no bound on the lines. -/
def anyLength : Nat → Prop := fun _ => True

/-- The lengths an `int` keeps. -/
def intLength : Nat → Prop := fun length => length < 2 ^ 31

/-- The bytes consumed are one message of the grammar, none of them is given back, and the
state `REQUEST_DONE` is entered on an empty line. -/
structure AcceptsGrammar (start final : Parsing) : Prop where
  consumed : ∃ text, RequestMessage anyLength text ∧ text <+: start.input.unread ∧
    final.input = start.input.consume text.length
  ahead : ∀ state, Relation.ReflTransGen parseLoop.Step start state →
    start.input.readIndex ≤ state.input.readIndex
  entered : ∀ before, Relation.ReflTransGen parseLoop.Step start before →
    parseLoop.Step before final → crlf <+: before.input.unread

/-- The bytes start with a message whose lines are all kept by an `int`. -/
def StartsWithMessage (unread : Bytes) : Prop :=
  ∃ text, RequestMessage intLength text ∧ text <+: unread

section Sizes

variable {size : Nat}

/-- A size that an `int` does not keep is a smaller number or a negative one. -/
theorem intOfSize_long (long : 2 ^ 31 ≤ size) :
    intOfSize size < 0 ∨ ∃ part wraps : Nat, intOfSize size = part ∧ 0 < wraps ∧
      size = 2 ^ 32 * wraps + part := by
  obtain ⟨wraps, whole, least, most⟩ := intOfSize_wraps size
  rcases Int.lt_or_le (intOfSize size) 0 with negative | positive
  · exact .inl negative
  · obtain ⟨part, same⟩ := Int.eq_ofNat_of_zero_le positive
    refine .inr ⟨part, wraps, same, ?_, ?_⟩
    · omega
    · omega

/-- What is left of a long line after a jump that falls short has the size `-2`. -/
theorem intOfSize_rest {wraps : Nat} (positive : 0 < wraps) :
    intOfSize (2 ^ 32 * wraps - 2) = -2 := by
  obtain ⟨others, whole, least, most⟩ := intOfSize_wraps (2 ^ 32 * wraps - 2)
  omega

end Sizes

section Long

variable {input : Buffer} {request : HttpRequest} {line rest : Bytes} {final : Parsing}

/-- A negative size makes `memmem` run out of the string. -/
theorem not_returns_of_negative (waiting : request.curState = .headers)
    (unread : input.unread = line ++ crlf ++ rest) (clear : ¬ crlf <:+: line)
    (negative : intOfSize line.length < 0) (bounded : input.data.length < 2 ^ 63) :
    ¬ parseLoop.Returns ⟨input, request⟩ final := by
  obtain ⟨wraps, whole, least, most⟩ := intOfSize_wraps line.length
  have size : ¬ input.readIndex + sizeOfInt (intOfSize line.length) ≤ input.data.length := by
    unfold sizeOfInt
    omega
  have fails : parseLoop.body ⟨input, request⟩ = .error .memory := by
    simp only [parseLoop, parseIteration, waiting, findCRLF_line unread clear, parseHeader,
      window_line unread, memmem, if_neg size]
    rfl
  intro returns
  have running : parseLoop.done ⟨input, request⟩ = false := by simp [parseLoop, waiting]
  obtain ⟨fuel, success⟩ := returns
  cases fuel with
  | zero => simp [Loop.run, running] at success
  | succ fuel => simp [Loop.run, running, fails] at success

/-- A jump that falls short within a long line leaves a rest of which the size is negative,
and the parser does not return from there. -/
private theorem not_returns_of_short_jump {part wraps : Nat}
    (waiting : request.curState = .headers) (unread : input.unread = line ++ crlf ++ rest)
    (clear : ¬ crlf <:+: line) (positive : 0 < wraps)
    (length : line.length + 2 = 2 ^ 32 * wraps + part) (bounded : input.data.length < 2 ^ 63) :
    ¬ parseLoop.Returns ⟨input.consume part, request⟩ final := by
  have behind : (input.consume part).unread = line.drop part ++ crlf ++ rest := by
    rw [Buffer.unread_consume, unread, List.append_assoc,
      List.drop_append_of_le_length (by omega), List.append_assoc]
  have inside : line.drop part <:+: line := (List.drop_suffix _ _).isInfix
  have left : (line.drop part).length = 2 ^ 32 * wraps - 2 := by
    rw [List.length_drop]
    omega
  refine not_returns_of_negative waiting behind (fun occurs => clear (occurs.trans inside)) ?_ bounded
  rw [left, intOfSize_rest positive]
  decide

/-- `memmem` on a line sees as many bytes of it as the `int` tells. -/
theorem memmem_part {part : Nat} (unread : input.unread = line ++ crlf ++ rest)
    (size : intOfSize line.length = part) (within : part ≤ line.length)
    (bounded : input.data.length < 2 ^ 63) (pattern : Bytes) :
    memmem input.data input.readIndex (sizeOfInt (intOfSize line.length)) pattern =
      .ok (search pattern (line.take part)) := by
  have sizes := congrArg List.length unread
  simp only [Buffer.unread, List.length_drop, List.length_append, crlf, List.length_cons,
    List.length_nil] at sizes
  have small : sizeOfInt part = part := sizeOfInt_ofNat (by omega)
  have inside : input.readIndex + part ≤ input.data.length := by omega
  have seen : window input.data input.readIndex (input.readIndex + part) = line.take part := by
    rw [window_add]
    change input.unread.take part = line.take part
    rw [unread, List.append_assoc, List.take_append_of_le_length within]
  rw [size, small, memmem, if_pos inside, seen]

/-- A line whose visible part has no `": "` is the last one. -/
theorem step_part_last {part : Nat} (waiting : request.curState = .headers)
    (unread : input.unread = line ++ crlf ++ rest) (clear : ¬ crlf <:+: line)
    (size : intOfSize line.length = part) (within : part ≤ line.length)
    (bounded : input.data.length < 2 ^ 63) (plain : ¬ colonSpace <:+: line.take part) :
    parseLoop.Step ⟨input, request⟩ ⟨input.consume 2, { request with curState := .done }⟩ := by
  refine ⟨by simp [parseLoop, waiting], ?_⟩
  simp only [parseLoop, parseIteration, waiting, findCRLF_line unread clear, parseHeader,
    window_line unread]
  rw [memmem_part unread size within bounded, ok_bind, search_eq_none.mpr plain]
  rfl

/-- A header line too long for an `int` whose visible part has `": "` is not got over. -/
theorem not_returns_of_long_header {part wraps : Nat} (waiting : request.curState = .headers)
    (unread : input.unread = line ++ crlf ++ rest) (clear : ¬ crlf <:+: line)
    (size : intOfSize line.length = part) (positive : 0 < wraps)
    (length : line.length = 2 ^ 32 * wraps + part) (bounded : input.data.length < 2 ^ 63)
    (colon : colonSpace <:+: line.take part) : ¬ parseLoop.Returns ⟨input, request⟩ final := by
  obtain ⟨offset, found⟩ := Option.ne_none_iff_exists'.mp fun missing =>
    search_eq_none.mp missing colon
  have step : parseLoop.Step ⟨input, request⟩ ⟨input.skip part, { request with
      headers := request.headers.emplace (line.take offset) (line.drop (offset + 2)) }⟩ := by
    refine ⟨by simp [parseLoop, waiting], ?_⟩
    simp only [parseLoop, parseIteration, waiting, findCRLF_line unread clear, parseHeader,
      window_line unread]
    rw [memmem_part unread size (by omega) bounded, ok_bind, found, size]
    rfl
  rw [skip_ofNat] at step
  intro returns
  exact absurd (returns.step step)
    (not_returns_of_short_jump waiting unread clear positive (by omega) bounded)

/-- A header line too long for an `int` is not got over: if the call returns, it ends on
that line. -/
theorem returns_at_long_header (returns : parseLoop.Returns ⟨input, request⟩ final)
    (waiting : request.curState = .headers) (unread : input.unread = line ++ crlf ++ rest)
    (clear : ¬ crlf <:+: line) (long : 2 ^ 31 ≤ line.length)
    (bounded : input.data.length < 2 ^ 63) : final.input = input.consume 2 := by
  rcases intOfSize_long long with negative | ⟨part, wraps, size, positive, length⟩
  · exact absurd returns (not_returns_of_negative waiting unread clear negative bounded)
  · by_cases colon : colonSpace <:+: line.take part
    · exact absurd returns
        (not_returns_of_long_header waiting unread clear size positive length bounded colon)
    · have step := step_part_last waiting unread clear size (by omega) bounded colon
      have finished : parseLoop.Returns ⟨input.consume 2, { request with curState := .done }⟩
          ⟨input.consume 2, { request with curState := .done }⟩ :=
        ⟨0, Loop.run_done (by simp [parseLoop]) 0⟩
      rw [(returns.step step).unique finished]

/-- A request line whose size wraps to zero is read again and again. -/
theorem not_returns_of_zero (waiting : request.curState = .status)
    (unread : input.unread = line ++ crlf ++ rest) (clear : ¬ crlf <:+: line)
    (split : SplitsAs line method url version) (zero : intOfSize line.length = 0) :
    ¬ parseLoop.Returns ⟨input, request⟩ final := by
  rintro ⟨fuel, success⟩
  induction fuel generalizing request with
  | zero => simp [Loop.run, parseLoop, waiting] at success
  | succ fuel ih =>
    have step : parseLoop.Step ⟨input, request⟩
        ⟨input, request.withLine method url version⟩ := by
      refine ⟨by simp [parseLoop, waiting], ?_⟩
      simp only [parseLoop, parseIteration, waiting, findCRLF_line unread clear, parseStatus,
        window_line unread]
      rw [processStatusLine_ok request split, ok_bind]
      simp only [zero, ne_eq, not_true_eq_false, ↓reduceIte]
      rfl
    have stays : (request.withLine method url version).curState = .status := waiting
    rw [Loop.run_step step] at success
    exact ih stays success

/-- A jump to before the start of the string wraps, to a position far behind its end. -/
private theorem unread_skip_below {size : Int} (least : -2 ^ 31 ≤ size)
    (below : ¬ 0 ≤ (input.readIndex : Int) + (size + 2)) (bounded : input.data.length < 2 ^ 63) :
    (input.skip size).unread = [] := by
  have position : input.data.length ≤ sizeAddInt input.readIndex (size + 2) := by
    rw [sizeAddInt, if_neg below]
    omega
  exact List.drop_eq_nil_of_le position

private theorem readIndex_skip {size : Int} (room : 0 ≤ (input.readIndex : Int) + (size + 2)) :
    ((input.skip size).readIndex : Int) = input.readIndex + (size + 2) := by
  simp only [Buffer.skip]
  rw [sizeAddInt, if_pos room]
  omega

/-- The step over a request line of any length whose size is not zero. -/
theorem step_long_line (waiting : request.curState = .status)
    (unread : input.unread = line ++ crlf ++ rest) (clear : ¬ crlf <:+: line)
    (split : SplitsAs line method url version) (size : intOfSize line.length ≠ 0) :
    parseLoop.Step ⟨input, request⟩ ⟨input.skip (intOfSize line.length),
      { request.withLine method url version with curState := .headers }⟩ := by
  refine ⟨by simp [parseLoop, waiting], ?_⟩
  simp only [parseLoop, parseIteration, waiting, findCRLF_line unread clear, parseStatus,
    window_line unread]
  rw [processStatusLine_ok request split, ok_bind]
  simp only [size, ne_eq, not_false_eq_true, ↓reduceIte]
  rfl

/-- A request line too long for an `int` is not got over either: if the call returns, it
has given bytes back. -/
theorem gives_back_of_long_line (returns : parseLoop.Returns ⟨input, request⟩ final)
    (waiting : request.curState = .status) (unread : input.unread = line ++ crlf ++ rest)
    (clear : ¬ crlf <:+: line) (split : SplitsAs line method url version)
    (long : 2 ^ 31 ≤ line.length) (bounded : input.data.length < 2 ^ 63) :
    ∃ state, parseLoop.Step ⟨input, request⟩ state ∧
      state.input.readIndex < input.readIndex := by
  have size : intOfSize line.length ≠ 0 := fun zero =>
    not_returns_of_zero waiting unread clear split zero returns
  have step := step_long_line waiting unread clear split size
  have next := returns.step step
  refine ⟨_, step, ?_⟩
  rcases intOfSize_long long with negative | ⟨part, wraps, same, positive, length⟩
  · obtain ⟨wraps, whole, least, most⟩ := intOfSize_wraps line.length
    by_cases room : 0 ≤ (input.readIndex : Int) + (intOfSize line.length + 2)
    · have position := readIndex_skip room
      rcases Int.lt_or_le (intOfSize line.length + 2) 0 with back | ahead
      · change (input.skip (intOfSize line.length)).readIndex < input.readIndex
        omega
      · -- the sizes `-1` and `-2` lead to the first two positions of the line
        obtain ⟨part, sum⟩ := Int.eq_ofNat_of_zero_le ahead
        have moved : input.skip (intOfSize line.length) = input.consume part := by
          rw [Buffer.skip, sum, sizeAddInt_ofNat, Buffer.consume]
        rw [moved] at next
        exact absurd next (not_returns_of_short_jump rfl unread clear (by omega : 0 < wraps)
          (by omega) bounded)
    · refine absurd next (not_returns_of_no_line (by simp) ?_)
      rw [unread_skip_below least room bounded]
      decide
  · rw [same, skip_ofNat] at next
    exact absurd next (not_returns_of_short_jump rfl unread clear positive (by omega) bounded)

end Long

section Sections

variable {input : Buffer} {request : HttpRequest} {rest : Bytes} {final : Parsing}

/-- A header section whose lines are short takes the parser behind its last byte. -/
theorem HeaderSection.accepted {text : Bytes} (headers : HeaderSection intLength text)
    (waiting : request.curState = .headers) (unread : input.unread = text ++ rest) :
    ∃ final, parseLoop.Returns ⟨input, request⟩ final ∧
      final.input = input.consume text.length ∧
      ∀ state, Relation.ReflTransGen parseLoop.Step ⟨input, request⟩ state →
        input.readIndex ≤ state.input.readIndex := by
  induction headers generalizing input request with
  | empty =>
    have ending : input.unread = [] ++ crlf ++ rest := unread
    have step := step_last waiting ending (by decide) (by decide) (by decide)
    have exits : parseLoop.done ⟨input.consume 2, { request with curState := .done }⟩ = true := by
      simp [parseLoop]
    refine ⟨_, .of_step step ⟨0, Loop.run_done exits 0⟩, rfl, ?_⟩
    intro state chain
    rcases step.reaches chain with same | later
    · rw [same]
    · rw [Loop.reaches_done exits later]
      exact Nat.le_add_right ..
  | @line line others clear fits colon _ ih =>
    rw [List.append_assoc] at unread
    obtain ⟨offset, found⟩ := Option.ne_none_iff_exists'.mp fun missing =>
      search_eq_none.mp missing colon
    have step := step_header waiting unread clear fits found
    have waitingNext : ({ request with
        headers := request.headers.emplace (line.take offset) (line.drop (offset + 2)) } :
          HttpRequest).curState = .headers := waiting
    obtain ⟨final, returns, consumed, ahead⟩ := ih waitingNext (unread_line unread)
    refine ⟨final, .of_step step returns, ?_, ?_⟩
    · rw [consumed, Buffer.consume_consume]
      simp [crlf, Nat.add_assoc, Nat.add_comm 2]
    · intro state chain
      rcases step.reaches chain with same | later
      · rw [same]
      · exact Nat.le_trans (Nat.le_add_right ..) (ahead state later)

/-- A header section that is consumed has short lines only. -/
theorem HeaderSection.short {text : Bytes} (headers : HeaderSection anyLength text)
    (waiting : request.curState = .headers) (unread : input.unread = text ++ rest)
    (returns : parseLoop.Returns ⟨input, request⟩ final)
    (consumed : final.input = input.consume text.length) (bounded : input.data.length < 2 ^ 63) :
    HeaderSection intLength text := by
  induction headers generalizing input request with
  | empty => exact .empty
  | @line line others clear _ colon _ ih =>
    rw [List.append_assoc] at unread
    by_cases fits : line.length < 2 ^ 31
    · obtain ⟨offset, found⟩ := Option.ne_none_iff_exists'.mp fun missing =>
        search_eq_none.mp missing colon
      have next := returns.step (step_header waiting unread clear fits found)
      refine .line clear fits colon (ih ?_ (unread_line unread) next ?_ bounded)
      · exact waiting
      · rw [consumed, Buffer.consume_consume]
        simp [crlf, Nat.add_assoc, Nat.add_comm 2]
    · have stopped := returns_at_long_header returns waiting unread clear (Nat.le_of_not_lt fits)
        bounded
      have positions := congrArg Buffer.readIndex (consumed.symm.trans stopped)
      simp only [Buffer.consume, List.length_append, crlf] at positions
      simp at positions
      omega

theorem processStatusLine_curState {line : Bytes} {later : HttpRequest} {size : Int}
    (success : processStatusLine line request = .ok (size, later)) :
    later.curState = request.curState := by
  rcases processStatusLine_cases line request with ⟨method, url, version, split⟩ | fails
  · rw [processStatusLine_ok request split] at success
    obtain ⟨_, same⟩ := Prod.mk.inj (Except.ok.inj success)
    rw [← same]
    rfl
  · rw [fails] at success
    cases success

/-- What one execution of the loop body does, whatever the bytes: it stays, skips a line or
ends the request. -/
theorem Step.cases {input : Buffer} {request : HttpRequest} {next : Parsing}
    (step : parseLoop.Step ⟨input, request⟩ next) :
    (next.input = input ∧ next.request.curState ≠ .done) ∨
      (∃ size, next.input = input.skip size ∧ next.request.curState ≠ .done) ∨
      next.input = input.consume 2 := by
  obtain ⟨running, body⟩ := step
  have before : request.curState ≠ .done := by simpa [parseLoop] using running
  simp only [parseLoop, parseIteration] at body
  split at body
  · obtain ⟨⟨size, later⟩, line, same⟩ := bind_eq_ok.mp body
    by_cases zero : size = 0
    · simp only [zero] at same
      cases same
      exact .inl ⟨rfl, processStatusLine_curState line ▸ before⟩
    · simp only [ne_eq, zero, not_false_eq_true, ↓reduceIte] at same
      cases same
      refine .inr (.inl ⟨size, rfl, ?_⟩)
      intro done
      cases done
  · rename_i position _ _
    simp only [parseHeader] at body
    generalize intOfSize (window input.data input.readIndex position).length = size at body
    obtain ⟨result, _, same⟩ := bind_eq_ok.mp body
    cases result with
    | some colon =>
      cases same
      exact .inr (.inl ⟨size, rfl, before⟩)
    | none =>
      cases same
      exact .inr (.inr rfl)
  · cases body
    exact .inl ⟨rfl, before⟩

/-- The parser never changes the string. -/
theorem data_of_reaches {start state : Parsing}
    (chain : Relation.ReflTransGen parseLoop.Step start state) :
    state.input.data = start.input.data := by
  induction chain with
  | refl => rfl
  | tail _ step ih =>
    rcases Step.cases step with ⟨same, _⟩ | ⟨size, same, _⟩ | same
    · rw [same, ih]
    · rw [same, ← ih]
      rfl
    · rw [same, ← ih]
      rfl

theorem HeaderSection.mono {fits wider : Nat → Prop} {text : Bytes}
    (headers : HeaderSection fits text) (wide : ∀ length, fits length → wider length) :
    HeaderSection wider text := by
  induction headers with
  | empty => exact .empty
  | line clear fit colon _ ih => exact .line clear (wide _ fit) colon ih

theorem RequestMessage.mono {fits wider : Nat → Prop} {text : Bytes}
    (message : RequestMessage fits text) (wide : ∀ length, fits length → wider length) :
    RequestMessage wider text := by
  cases message with
  | line clear fit split headers => exact .line clear (wide _ fit) split (headers.mono wide)

theorem HeaderSection.ends {fits : Nat → Prop} {text : Bytes} (headers : HeaderSection fits text) :
    ∃ front, text = front ++ crlf := by
  induction headers with
  | empty => exact ⟨[], rfl⟩
  | @line line rest _ _ _ _ ih =>
    obtain ⟨front, same⟩ := ih
    exact ⟨line ++ crlf ++ front, by rw [same]; simp only [List.append_assoc]⟩

theorem RequestMessage.ends {fits : Nat → Prop} {text : Bytes} (message : RequestMessage fits text) :
    ∃ front, text = front ++ crlf := by
  cases message with
  | @line line _ _ _ rest _ _ _ headers =>
    obtain ⟨front, same⟩ := headers.ends
    exact ⟨line ++ crlf ++ front, by rw [same]; simp only [List.append_assoc]⟩

end Sections

/-- Whoever has consumed a message has found its empty line at the end. -/
theorem entered_of_consumed {fits : Nat → Prop} {start final : Parsing} {text : Bytes}
    (message : RequestMessage fits text) (starts : text <+: start.input.unread)
    (consumed : final.input = start.input.consume text.length)
    (finished : final.request.curState = .done) (before : Parsing)
    (chain : Relation.ReflTransGen parseLoop.Step start before)
    (step : parseLoop.Step before final) : crlf <+: before.input.unread := by
  obtain ⟨front, split⟩ := message.ends
  obtain ⟨rest, unread⟩ := starts
  have last : final.input = before.input.consume 2 := by
    rcases Step.cases step with ⟨_, running⟩ | ⟨size, _, running⟩ | same
    · exact absurd finished running
    · exact absurd finished running
    · exact same
  have positions := congrArg Buffer.readIndex (last.symm.trans consumed)
  have position : before.input.readIndex = start.input.readIndex + front.length := by
    rw [split] at positions
    simp [Buffer.consume, crlf] at positions
    omega
  have behind : before.input.unread = crlf ++ rest := by
    rw [Buffer.unread, data_of_reaches chain, position, ← List.drop_drop]
    change start.input.unread.drop front.length = crlf ++ rest
    rw [← unread, split, List.append_assoc, List.drop_left]
  rw [behind]
  exact List.prefix_append ..

/-- A message whose lines are short is accepted. -/
theorem StartsWithMessage.accepts {input : Buffer} {request : HttpRequest} {final : Parsing}
    (starts : StartsWithMessage input.unread) (waiting : request.curState = .status)
    (returns : parseLoop.Returns ⟨input, request⟩ final) :
    AcceptsGrammar ⟨input, request⟩ final := by
  obtain ⟨text, message, rest, unread⟩ := starts
  have finished : final.request.curState = .done := by
    simpa [parseLoop] using (Loop.returns_iff.mp returns).2
  have parsed : final.input = input.consume text.length ∧
      ∀ state, Relation.ReflTransGen parseLoop.Step ⟨input, request⟩ state →
        input.readIndex ≤ state.input.readIndex := by
    cases message with
    | @line line method url version others clear fits split headers =>
      rw [List.append_assoc] at unread
      have step := step_status waiting unread.symm clear fits split
      have waits : ({ request.withLine method url version with
          curState := .headers } : HttpRequest).curState = .headers := rfl
      obtain ⟨last, result, consumed, ahead⟩ := headers.accepted waits (unread_line unread.symm)
      rw [(returns.step step).unique result]
      constructor
      · rw [consumed, Buffer.consume_consume]
        simp [crlf, Nat.add_assoc, Nat.add_comm 2]
      · intro state chain
        rcases step.reaches chain with same | later
        · rw [same]
        · exact Nat.le_trans (Nat.le_add_right ..) (ahead state later)
  have any : RequestMessage anyLength text := message.mono fun _ _ => trivial
  exact ⟨⟨text, any, ⟨rest, unread⟩, parsed.1⟩, parsed.2,
    entered_of_consumed message ⟨rest, unread⟩ parsed.1 finished⟩

/-- A call that returns has consumed one message of the grammar exactly when the bytes
start with a message whose lines are all kept by an `int`. -/
theorem accepts_grammar_iff {input : Buffer} {request : HttpRequest} {final : Parsing}
    (waiting : request.curState = .status) (returns : parseLoop.Returns ⟨input, request⟩ final)
    (bounded : input.data.length < 2 ^ 63) :
    AcceptsGrammar ⟨input, request⟩ final ↔ StartsWithMessage input.unread := by
  constructor
  · intro accepts
    obtain ⟨text, message, ⟨rest, unread⟩, consumed⟩ := accepts.consumed
    refine ⟨text, ?_, rest, unread⟩
    cases message with
    | @line line method url version others clear _ split headers =>
      rw [List.append_assoc] at unread
      by_cases fits : line.length < 2 ^ 31
      · have next := returns.step (step_status waiting unread.symm clear fits split)
        refine .line clear fits split
          (headers.short rfl (unread_line unread.symm) next ?_ bounded)
        rw [consumed, Buffer.consume_consume]
        simp [crlf, Nat.add_assoc, Nat.add_comm 2]
      · obtain ⟨state, step, back⟩ := gives_back_of_long_line returns waiting unread.symm clear
          split (Nat.le_of_not_lt fits) bounded
        exact absurd (accepts.ahead state (.single step)) (Nat.not_le_of_lt back)
  · intro starts
    exact starts.accepts waiting returns

private theorem sample_bounded :
    (Buffer.holding (ascii "A B C\r\nk: v\r\n\r\n")).data.length < 2 ^ 63 := by
  have length : (Buffer.holding (ascii "A B C\r\nk: v\r\n\r\n")).data.length = 15 := by decide
  omega

theorem accepts_grammar_sample : ∃ final,
    parseLoop.Returns ⟨.holding (ascii "A B C\r\nk: v\r\n\r\n"), .new⟩ final ∧
      (AcceptsGrammar ⟨.holding (ascii "A B C\r\nk: v\r\n\r\n"), .new⟩ final ↔
        StartsWithMessage (Buffer.holding (ascii "A B C\r\nk: v\r\n\r\n")).unread) :=
  ⟨_, ⟨3, rfl⟩, accepts_grammar_iff rfl ⟨3, rfl⟩ sample_bounded⟩

/-- A header line without the blank behind its colon ends the request, and its third byte
is the first of the next request line. -/
theorem header_line_ends_request : ∃ final,
    parseLoop.Returns ⟨.holding (ascii "A B C\r\nKey:value\r\n\r\n"), .new⟩ final ∧
      final.request.curState = .done ∧ final.input.contents = ascii "y:value\r\n\r\n" ∧
      ¬ AcceptsGrammar ⟨.holding (ascii "A B C\r\nKey:value\r\n\r\n"), .new⟩ final := by
  have split : SplitsAs (ascii "A B C") (ascii "A") (ascii "B") (ascii "C") :=
    ⟨by decide, by decide, by decide⟩
  have line : (Buffer.holding (ascii "A B C\r\nKey:value\r\n\r\n")).unread =
      ascii "A B C" ++ crlf ++ ascii "Key:value\r\n\r\n" := by decide
  have first := step_status (rfl : HttpRequest.new.curState = .status) line (by decide)
    (by decide) split
  have behind : ((Buffer.holding (ascii "A B C\r\nKey:value\r\n\r\n")).consume 7).unread =
      ascii "Key:value" ++ crlf ++ crlf := by decide
  have second := step_last (rfl : ({ HttpRequest.new.withLine (ascii "A") (ascii "B") (ascii "C") with
    curState := .headers } : HttpRequest).curState = .headers) behind (by decide) (by decide)
      (by decide)
  refine ⟨_, .of_step first (.of_step second ⟨0, rfl⟩), rfl, by decide, ?_⟩
  intro accepts
  obtain ⟨text, message, starts, consumed⟩ := accepts.consumed
  obtain ⟨front, split⟩ := message.ends
  have length : 9 = text.length :=
    (congrArg Buffer.readIndex consumed).trans (Nat.zero_add text.length)
  have same : text = ascii "A B C\r\nKe" := by
    rw [List.prefix_iff_eq_take.mp starts, ← length]
    decide
  have suffix : crlf <:+ ascii "A B C\r\nKe" := ⟨front, by rw [← same, split]⟩
  exact absurd suffix (by decide)

end Yolanda.App
