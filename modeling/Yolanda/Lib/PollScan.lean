import Yolanda.Foundation.Loop
import Yolanda.Lib.Dispatch

/-! The loop of `poll_dispatch` over its slots, while the handlers it calls add channels to the
same slots, update them, and remove their own. -/

namespace Yolanda.Lib

open App (Channel)
open Foundation

/-- A call of a handler that comes to the slots. -/
inductive HandlerCall where
  | add (channel : Channel)
  | update (channel : Channel)
  | remove (channel : Channel)

/-- The slots, the descriptors whose channel is removed, the place in the loop with
`ready_number`, and the processed slots with the descriptors they had then. -/
structure PollScan where
  set : PollSet
  gone : List Int
  batch : Nat × Nat
  processed : List (Nat × Int)

/-- What a handler does for each slot that is ready: when it is readable, and when it is
writable. -/
abbrev Handlers := Nat → List HandlerCall × List HandlerCall

namespace PollScan

/-- A channel is added for a descriptor, and removed once. -/
def call (scan : PollScan) : HandlerCall → PollScan
  | .add channel =>
    if channel.fd < 0 then scan
    else { scan with
      set := scan.set.add channel
      gone := scan.gone.filter (· ≠ channel.fd) }
  | .update channel => { scan with set := scan.set.update channel }
  | .remove channel =>
    if channel.fd ∈ scan.gone then scan
    else { scan with
      set := scan.set.del channel
      gone := channel.fd :: scan.gone }

/-- `channel_event_activate`, which does nothing for a removed channel. -/
def activate (calls : List HandlerCall) (fd : Int) (scan : PollScan) : PollScan :=
  if fd ∈ scan.gone then scan else calls.foldl call scan

/-- What `poll_dispatch` does for a slot that is ready. -/
def process (handler : List HandlerCall × List HandlerCall) (scan : PollScan) (fd : Int)
    (readable writable : Bool) : PollScan :=
  let read := if readable then activate handler.1 fd scan else scan
  if writable then activate handler.2 fd read else read

/-- The loop of `poll_dispatch`. -/
def loop (handlers : Handlers) : Loop PollScan Unit where
  done scan := (pollBackend.next scan.set scan.batch).isNone
  body scan :=
    match pollBackend.next scan.set scan.batch with
    | some (.activate fd readable writable, later) =>
      let after := process (handlers scan.batch.1) scan fd readable writable
      .ok { after with
        batch := later
        processed := after.processed ++ [(scan.batch.1, fd)] }
    | some (.skip, later) => .ok { scan with batch := later }
    | some (.close _, later) => .ok { scan with batch := later }
    | none => .ok scan
  unfinished := ()

/-- A handler adds channels of descriptors that no slot has, and removes no channel but its
own. -/
def Permitted (own : Int) (scan : PollScan) : HandlerCall → Prop
  | .add channel => ∀ slot ∈ scan.set.eventSet, slot.fd ≠ channel.fd
  | .update _ => True
  | .remove channel => channel.fd = own

def AllPermitted (own : Int) : PollScan → List HandlerCall → Prop
  | _, [] => True
  | scan, made :: calls => Permitted own scan made ∧ AllPermitted own (scan.call made) calls

/-- Calls that `channel_event_activate` leads to are permitted. -/
def Mannered (calls : List HandlerCall) (fd : Int) (scan : PollScan) : Prop :=
  fd ∉ scan.gone → AllPermitted fd scan calls

/-- All calls that are made for the next slot are permitted. -/
def AllMannered (handlers : Handlers) (scan : PollScan) : Prop :=
  ∀ fd readable writable later,
    pollBackend.next scan.set scan.batch = some (.activate fd readable writable, later) →
    (readable = true → Mannered (handlers scan.batch.1).1 fd scan) ∧
      (writable = true → Mannered (handlers scan.batch.1).2 fd
        (if readable then activate (handlers scan.batch.1).1 fd scan else scan))

end PollScan

/-- The slot was reported ready. -/
def Pollfd.reported (slot : Pollfd) : Bool :=
  slot.revents.toInt > 0

/-- The slots that were reported ready, in their order. -/
def reportedSlots (slots : List Pollfd) : List (Nat × Int) :=
  (slots.zipIdx.filter fun entry => entry.1.reported).map fun entry => (entry.2, entry.1.fd)

theorem reportedSlots_concat (slots : List Pollfd) (slot : Pollfd) :
    reportedSlots (slots ++ [slot]) =
      reportedSlots slots ++ if slot.reported then [(slots.length, slot.fd)] else [] := by
  cases reports : slot.reported with
  | false => simp [reportedSlots, List.zipIdx_append, reports]
  | true => simp [reportedSlots, List.zipIdx_append, reports]

theorem reportedSlots_append {after : List Pollfd}
    (silent : ∀ slot ∈ after, ¬ slot.reported = true) (before : List Pollfd) :
    reportedSlots (before ++ after) = reportedSlots before := by
  have none : ((after.zipIdx before.length).filter fun entry => entry.1.reported) = [] := by
    apply List.filter_eq_nil_iff.mpr
    intro entry member
    exact silent entry.1 (List.fst_mem_of_mem_zipIdx member)
  rw [reportedSlots, List.zipIdx_append, List.filter_append, Nat.zero_add, none, List.append_nil,
    reportedSlots]

namespace PollSet

/-- `poll` reports nothing for a free slot. -/
def Polled (set : PollSet) : Prop :=
  ∀ slot ∈ set.eventSet, slot.fd < 0 → ¬ slot.reported = true

/-- The loop begins with the number of slots that `poll` reported. -/
def scan (set : PollSet) : PollScan where
  set := set
  gone := []
  batch := (0, set.eventSet.countP Pollfd.reported)
  processed := []

theorem polled (set : PollSet) (conditions : Int → Conditions) : (set.poll conditions).Polled := by
  intro slot member free
  obtain ⟨before, _, rfl⟩ := List.mem_map.mp member
  simp only [Pollfd.reported, if_pos free]
  decide

theorem reported_iff (events : BitVec 16) (conditions : Conditions) :
    (revents events conditions).toInt > 0 ↔ revents events conditions ≠ 0 := by
  have flag (chosen : Bool) {bits : BitVec 16} (clear : bits.msb = false) :
      (if chosen then bits else 0).msb = false := by
    cases chosen with
    | false => exact BitVec.msb_zero
    | true => exact clear
  have masked {mask : BitVec 16} (clear : mask.msb = false) : (events &&& mask).msb = false := by
    rw [BitVec.msb_and, clear, Bool.and_false]
  have sign : (revents events conditions).msb = false := by
    simp only [revents, BitVec.msb_or, Bool.or_eq_false_iff]
    exact ⟨⟨⟨flag _ (masked rfl), flag _ (masked rfl)⟩, flag _ rfl⟩, flag _ rfl⟩
  rw [BitVec.toInt_eq_toNat_of_msb sign, gt_iff_lt, Int.natCast_pos, Nat.pos_iff_ne_zero,
    ne_eq, ne_eq, ← BitVec.toNat_inj]
  rfl

/-- `poll` returns the number of slots that it reports. -/
theorem ready_poll (set : PollSet) (conditions : Int → Conditions) :
    (set.poll conditions).ready = (set.poll conditions).eventSet.countP Pollfd.reported := by
  apply List.countP_congr
  intro slot member
  obtain ⟨before, _, rfl⟩ := List.mem_map.mp member
  by_cases free : before.fd < 0
  · simp [Pollfd.reported, free]
  · simp [Pollfd.reported, free, reported_iff]

/-- The loop begins where `poll` leaves the slots. -/
theorem wait_poll (set : PollSet) (conditions : Int → Conditions) :
    pollBackend.wait set conditions =
      some ((set.poll conditions).scan.set, (set.poll conditions).scan.batch) := by
  simp only [pollBackend, scan, ready_poll]

variable {set now : PollSet} {place : Nat} {fits : Pollfd → Bool} {change : Pollfd → Pollfd}

/-- The slots from a place on that were reported have their reports and their descriptors. -/
structure Ahead (set now : PollSet) (place : Nat) : Prop where
  reports : now.eventSet.map Pollfd.revents = set.eventSet.map Pollfd.revents
  held : ∀ later slot old, place ≤ later → now.eventSet[later]? = some slot →
    set.eventSet[later]? = some old → old.reported = true → slot.fd = old.fd

namespace Ahead

theorem refl (set : PollSet) : set.Ahead set 0 := by
  refine ⟨rfl, ?_⟩
  intro later slot old _ found same _
  cases found.symm.trans same
  rfl

theorem mono {further : Nat} (ahead : set.Ahead now place) (more : place ≤ further) :
    set.Ahead now further :=
  ⟨ahead.reports, fun later slot old start =>
    ahead.held later slot old (Nat.le_trans more start)⟩

/-- The slots are those that were polled, with the same reports. -/
theorem slot_before (ahead : set.Ahead now place) {later : Nat} {slot : Pollfd}
    (found : now.eventSet[later]? = some slot) :
    ∃ old, set.eventSet[later]? = some old ∧ slot.revents = old.revents := by
  have there := congrArg (fun reports => reports[later]?) ahead.reports
  simp only [List.getElem?_map, found, Option.map_some] at there
  obtain ⟨old, place, same⟩ := Option.map_eq_some_iff.mp there.symm
  exact ⟨old, place, same.symm⟩

/-- A reported slot ahead is not free. -/
theorem taken (polled : set.Polled) (ahead : set.Ahead now place) {later : Nat}
    {slot old : Pollfd} (start : place ≤ later) (found : now.eventSet[later]? = some slot)
    (before : set.eventSet[later]? = some old) (reported : old.reported = true) :
    ¬ slot.fd < 0 := by
  rw [ahead.held later slot old start found before reported]
  exact fun free => polled old (List.mem_of_getElem? before) free reported

/-- A change of a slot is of no matter that keeps its report and, where it was reported, its
descriptor. -/
theorem modify (ahead : set.Ahead now place)
    (keeps : ∀ slot, (change slot).revents = slot.revents)
    (spares : ∀ later slot old, place ≤ later → now.eventSet[later]? = some slot →
      set.eventSet[later]? = some old → old.reported = true → fits slot = true →
      (∀ earlier other, earlier < later → now.eventSet[earlier]? = some other →
        ¬ fits other = true) → (change slot).fd = slot.fd) :
    set.Ahead (now.modify fits change) place := by
  refine ⟨(map_modifyFirst keeps now.eventSet).trans ahead.reports, ?_⟩
  intro later slot old start found before reported
  rcases getElem?_modifyFirst_cases found with same | ⟨first, there, fit, changed, none⟩
  · exact ahead.held later slot old start same before reported
  · have kept := ahead.held later first old start there before reported
    rw [changed, spares later first old start there before reported fit none, kept]

end Ahead

/-- `poll_update` leaves the descriptors in their places. -/
theorem fd_update (set : PollSet) (channel : Channel) (index : Nat) :
    ((set.update channel).eventSet[index]?).map Pollfd.fd =
      (set.eventSet[index]?).map Pollfd.fd := by
  have kept : (set.update channel).eventSet.map Pollfd.fd = set.eventSet.map Pollfd.fd := by
    apply map_modifyFirst
    intro slot
    rfl
  rw [← List.getElem?_map, kept, List.getElem?_map]

end PollSet

namespace PollScan

open PollSet (Ahead)

variable {set : PollSet} {scan : PollScan} {place : Nat} {own : Int} {made : HandlerCall}

/-- The handlers of a descriptor are at work. Until its channel is removed, the descriptor is
in a slot that the loop has left behind, or in no slot that was reported. -/
structure Serving (set : PollSet) (place : Nat) (own : Int) (scan : PollScan) : Prop where
  ahead : set.Ahead scan.set (place + 1)
  owned : own ∉ scan.gone →
    (∃ earlier slot, earlier ≤ place ∧ scan.set.eventSet[earlier]? = some slot ∧ slot.fd = own) ∨
      ∀ later slot old, place < later → scan.set.eventSet[later]? = some slot → slot.fd = own →
        set.eventSet[later]? = some old → ¬ old.reported = true

namespace Serving

theorem add (polled : set.Polled) (positive : 0 ≤ own) (serving : Serving set place own scan)
    {channel : Channel} (fresh : ∀ slot ∈ scan.set.eventSet, slot.fd ≠ channel.fd) :
    Serving set place own (scan.call (.add channel)) := by
  by_cases negative : channel.fd < 0
  · rwa [call, if_pos negative]
  rw [call, if_neg negative]
  constructor
  · refine serving.ahead.modify ?_ ?_
    · intro slot
      rfl
    intro later slot old start found before reported fit _
    have free : slot.fd < 0 := by simpa using fit
    exact absurd free (serving.ahead.taken polled start found before reported)
  · intro kept
    by_cases same : channel.fd = own
    · -- no slot had the descriptor, and a free slot ahead was not reported
      right
      intro later slot old start found named before reported
      rcases getElem?_modifyFirst_cases found with unchanged | ⟨first, there, fit, _⟩
      · exact fresh slot (List.mem_of_getElem? unchanged) (named.trans same.symm)
      · have free : first.fd < 0 := by simpa using fit
        exact serving.ahead.taken polled start there before reported free
    · have before : own ∉ scan.gone := by
        intro member
        apply kept
        exact List.mem_filter.mpr ⟨member, by simpa using Ne.symm same⟩
      rcases serving.owned before with ⟨earlier, slot, behind, found, named⟩ | silent
      · left
        refine ⟨earlier, slot, behind, ?_, named⟩
        apply getElem?_modifyFirst found
        simpa [named] using positive
      · right
        intro later slot old start found named
        rcases getElem?_modifyFirst_cases found with unchanged | ⟨first, _, _, changed, _⟩
        · exact silent later slot old start unchanged named
        · rw [changed] at named
          exact absurd named same

theorem update (serving : Serving set place own scan) (channel : Channel) :
    Serving set place own (scan.call (.update channel)) := by
  constructor
  · refine serving.ahead.modify ?_ ?_
    · intro slot
      rfl
    · intros
      rfl
  intro kept
  rcases serving.owned kept with ⟨earlier, slot, behind, found, same⟩ | silent
  · have there := scan.set.fd_update channel earlier
    rw [found] at there
    obtain ⟨other, place, equal⟩ := Option.map_eq_some_iff.mp there
    exact .inl ⟨earlier, other, behind, place, equal.trans same⟩
  · right
    intro later slot old start found same
    have there := scan.set.fd_update channel later
    rw [show (scan.set.update channel).eventSet[later]? = some slot from found] at there
    obtain ⟨other, place, equal⟩ := Option.map_eq_some_iff.mp there.symm
    exact silent later other old start place (equal.trans same)

theorem remove (serving : Serving set place own scan) {channel : Channel}
    (named : channel.fd = own) : Serving set place own (scan.call (.remove channel)) := by
  by_cases removed : channel.fd ∈ scan.gone
  · rwa [call, if_pos removed]
  rw [call, if_neg removed]
  constructor
  · refine serving.ahead.modify ?_ ?_
    · intro slot
      rfl
    intro later slot old start found before reported fit none
    have same : slot.fd = own := by simpa [named] using fit
    -- the first slot with the descriptor is behind, or was not reported
    rcases serving.owned (named ▸ removed) with ⟨earlier, other, behind, there, equal⟩ | silent
    · have fits := none earlier other (Nat.lt_of_le_of_lt behind start) there
      simp [equal, named] at fits
    · exact absurd reported (silent later slot old start found same before)
  · intro kept
    exact absurd (List.mem_cons_self ..) (named ▸ kept)

/-- What a permitted call keeps. -/
theorem call (polled : set.Polled) (positive : 0 ≤ own) (serving : Serving set place own scan)
    (permitted : Permitted own scan made) : Serving set place own (scan.call made) := by
  cases made with
  | add channel => exact serving.add polled positive permitted
  | update channel => exact serving.update channel
  | remove channel => exact serving.remove permitted

theorem activate (polled : set.Polled) (positive : 0 ≤ own) {calls : List HandlerCall}
    (serving : Serving set place own scan) (mannered : Mannered calls own scan) :
    Serving set place own (activate calls own scan) := by
  by_cases removed : own ∈ scan.gone
  · rwa [PollScan.activate, if_pos removed]
  rw [PollScan.activate, if_neg removed]
  have permitted := mannered removed
  clear removed mannered
  induction calls generalizing scan with
  | nil => exact serving
  | cons made calls ih => exact ih (serving.call polled positive permitted.1) permitted.2

theorem process (polled : set.Polled) (positive : 0 ≤ own)
    {handler : List HandlerCall × List HandlerCall} {readable writable : Bool}
    (serving : Serving set place own scan)
    (reads : readable = true → Mannered handler.1 own scan)
    (writes : writable = true → Mannered handler.2 own
      (if readable then PollScan.activate handler.1 own scan else scan)) :
    Serving set place own (process handler scan own readable writable) := by
  have read : Serving set place own
      (if readable then PollScan.activate handler.1 own scan else scan) := by
    cases readable with
    | false => exact serving
    | true => exact serving.activate polled positive (reads rfl)
  cases writable with
  | false => exact read
  | true => exact read.activate polled positive (writes rfl)

end Serving

theorem call_processed (scan : PollScan) (made : HandlerCall) :
    (scan.call made).processed = scan.processed := by
  cases made with
  | add channel =>
    by_cases negative : channel.fd < 0
    · rw [call, if_pos negative]
    · rw [call, if_neg negative]
  | update channel => rfl
  | remove channel =>
    by_cases removed : channel.fd ∈ scan.gone
    · rw [call, if_pos removed]
    · rw [call, if_neg removed]

/-- The handlers have no part in what was processed. -/
theorem activate_processed (calls : List HandlerCall) (fd : Int) (scan : PollScan) :
    (activate calls fd scan).processed = scan.processed := by
  unfold activate
  split
  case isTrue removed => rfl
  case isFalse there =>
    clear there
    induction calls generalizing scan with
    | nil => rfl
    | cons made calls ih => exact (ih (scan.call made)).trans (scan.call_processed made)

theorem process_processed (handler : List HandlerCall × List HandlerCall) (scan : PollScan)
    (fd : Int) (readable writable : Bool) :
    (process handler scan fd readable writable).processed = scan.processed := by
  have read : (if readable then activate handler.1 fd scan else scan).processed =
      scan.processed := by
    cases readable with
    | false => rfl
    | true => exact activate_processed handler.1 fd scan
  cases writable with
  | false => exact read
  | true => exact (activate_processed handler.2 fd _).trans read

/-- What is processed before a place of the loop, and what is left. -/
structure Scanning (set : PollSet) (scan : PollScan) : Prop where
  ahead : set.Ahead scan.set scan.batch.1
  left : scan.batch.2 = (set.eventSet.drop scan.batch.1).countP Pollfd.reported
  visited : scan.processed = reportedSlots (set.eventSet.take scan.batch.1)
  inside : scan.batch.1 ≤ initPollSize

namespace Scanning

variable {handlers : Handlers} {slot old : Pollfd}

theorem start (set : PollSet) : Scanning set set.scan :=
  ⟨.refl set, rfl, rfl, Nat.zero_le _⟩

/-- A slot that was not reported is passed over. -/
theorem skip (scanning : Scanning set scan) (before : set.eventSet[scan.batch.1]? = some old)
    (silent : old.reported = false) :
    Scanning set { scan with batch := (scan.batch.1 + 1, scan.batch.2) } := by
  obtain ⟨bound, equal⟩ := List.getElem?_eq_some_iff.mp before
  refine ⟨scanning.ahead.mono (Nat.le_succ _), ?_, ?_, set.size ▸ bound⟩
  · rw [scanning.left, List.drop_eq_getElem_cons bound, equal]
    simp [silent]
  · rw [scanning.visited, List.take_succ_eq_append_getElem bound, equal, reportedSlots_concat,
      silent]
    simp

/-- A slot that was reported is processed with the descriptor it was reported for. -/
theorem process (polled : set.Polled) (scanning : Scanning set scan)
    (found : scan.set.eventSet[scan.batch.1]? = some slot)
    (before : set.eventSet[scan.batch.1]? = some old) (reported : old.reported = true)
    {handler : List HandlerCall × List HandlerCall} {readable writable : Bool}
    (reads : readable = true → Mannered handler.1 slot.fd scan)
    (writes : writable = true → Mannered handler.2 slot.fd
      (if readable then activate handler.1 slot.fd scan else scan)) :
    let after := PollScan.process handler scan slot.fd readable writable
    Scanning set { after with
      batch := (scan.batch.1 + 1, scan.batch.2 - 1)
      processed := after.processed ++ [(scan.batch.1, slot.fd)] } := by
  obtain ⟨bound, equal⟩ := List.getElem?_eq_some_iff.mp before
  have taken := scanning.ahead.taken polled (Nat.le_refl _) found before reported
  have serving : Serving set scan.batch.1 slot.fd scan := by
    refine ⟨scanning.ahead.mono (Nat.le_succ _), ?_⟩
    intro _
    exact .inl ⟨scan.batch.1, slot, Nat.le_refl _, found, rfl⟩
  have served := serving.process polled (Int.not_lt.mp taken) reads writes
  refine ⟨served.ahead, ?_, ?_, set.size ▸ bound⟩
  · simp only
    rw [scanning.left, List.drop_eq_getElem_cons bound, equal]
    simp [reported]
  · have same := scanning.ahead.held _ slot old (Nat.le_refl _) found before reported
    have length : (set.eventSet.take scan.batch.1).length = scan.batch.1 :=
      List.length_take_of_le (Nat.le_of_lt bound)
    simp only
    rw [process_processed, scanning.visited, List.take_succ_eq_append_getElem bound, equal,
      reportedSlots_concat, if_pos reported, length, same]

/-- The loop takes one slot after the other. -/
theorem advance (polled : set.Polled) (scanning : Scanning set scan)
    (mannered : AllMannered handlers scan) (running : (loop handlers).done scan = false) :
    ∃ next, (loop handlers).body scan = .ok next ∧ Scanning set next ∧
      next.batch.1 = scan.batch.1 + 1 := by
  have more : scan.batch.2 ≠ 0 := by
    intro none
    simp [loop, pollBackend, none] at running
  cases found : scan.set.eventSet[scan.batch.1]? with
  | none => simp [loop, pollBackend, more, found] at running
  | some slot =>
    obtain ⟨old, before, same⟩ := scanning.ahead.slot_before found
    have reports : slot.reported = old.reported := by rw [Pollfd.reported, Pollfd.reported, same]
    cases reported : old.reported with
    | false =>
      refine ⟨_, ?_, scanning.skip before reported, rfl⟩
      have silent : ¬ 0 < slot.revents.toInt := by
        simpa [Pollfd.reported] using reports.trans reported
      by_cases free : slot.fd < 0
      · simp [loop, pollBackend, more, found, free]
      · simp [loop, pollBackend, more, found, free, silent]
    | true =>
      have taken := scanning.ahead.taken polled (Nat.le_refl _) found before reported
      have positive : 0 < slot.revents.toInt := by
        simpa [Pollfd.reported] using reports.trans reported
      have next : pollBackend.next scan.set scan.batch =
          some (.activate slot.fd (slot.revents &&& pollRdNorm ≠ 0)
            (slot.revents &&& pollWrNorm ≠ 0), scan.batch.1 + 1, scan.batch.2 - 1) := by
        simp [pollBackend, more, found, taken, positive]
      obtain ⟨reads, writes⟩ := mannered _ _ _ _ next
      refine ⟨_, ?_, scanning.process polled found before reported reads writes, rfl⟩
      simp only [loop, next]

/-- Where the loop ends, no slot is left that was reported. -/
theorem finish (scanning : Scanning set scan) (ended : (loop handlers).done scan = true) :
    scan.processed = reportedSlots set.eventSet := by
  have silent : ∀ slot ∈ set.eventSet.drop scan.batch.1, ¬ slot.reported = true := by
    by_cases none : scan.batch.2 = 0
    · exact List.countP_eq_zero.mp (scanning.left.symm.trans none)
    · have out : scan.set.eventSet.length ≤ scan.batch.1 := by
        cases found : scan.set.eventSet[scan.batch.1]? with
        | none => exact List.getElem?_eq_none_iff.mp found
        | some slot =>
          by_cases free : slot.fd < 0
          · simp [loop, pollBackend, none, found, free] at ended
          · by_cases positive : 0 < slot.revents.toInt
            · simp [loop, pollBackend, none, found, free, positive] at ended
            · simp [loop, pollBackend, none, found, free, positive] at ended
      rw [List.drop_eq_nil_of_le (by rwa [set.size, ← scan.set.size])]
      exact nofun
  have parts := reportedSlots_append silent (set.eventSet.take scan.batch.1)
  rw [List.take_append_drop] at parts
  rw [scanning.visited, parts]

end Scanning

variable {handlers : Handlers}

theorem scanning_of_reaches (polled : set.Polled)
    (mannered : ∀ scan, Relation.ReflTransGen (loop handlers).Step set.scan scan →
      AllMannered handlers scan)
    (chain : Relation.ReflTransGen (loop handlers).Step set.scan scan) : Scanning set scan := by
  induction chain with
  | refl => exact .start set
  | tail earlier step ih =>
    obtain ⟨next, body, scanning, _⟩ := ih.advance polled (mannered _ earlier) step.1
    cases body.symm.trans step.2
    exact scanning

/-- The loop of `poll_dispatch` ends, has processed the slots that were reported and no others,
and `ready_number` is at all times the number of those that are left. -/
theorem reported_slots_processed (handlers : Handlers) (set : PollSet) (polled : set.Polled)
    (mannered : ∀ scan, Relation.ReflTransGen (loop handlers).Step set.scan scan →
      AllMannered handlers scan) :
    (∃ final, (loop handlers).Returns set.scan final ∧
      final.processed = reportedSlots set.eventSet) ∧
      ∀ scan, Relation.ReflTransGen (loop handlers).Step set.scan scan →
        scan.processed = reportedSlots (set.eventSet.take scan.batch.1) ∧
          scan.batch.2 = (set.eventSet.drop scan.batch.1).countP Pollfd.reported := by
  constructor
  · obtain ⟨final, returns, chain, ended⟩ := Loop.run_total
      (fun scan => Relation.ReflTransGen (loop handlers).Step set.scan scan)
      (fun scan => initPollSize - scan.batch.1) (by
        intro scan chain running
        have scanning := scanning_of_reaches polled mannered chain
        obtain ⟨next, body, later, further⟩ :=
          scanning.advance polled (mannered scan chain) running
        have inside := later.inside
        exact ⟨next, body, chain.tail ⟨running, body⟩, by omega⟩)
      .refl (Nat.le_refl _)
    exact ⟨final, ⟨_, returns⟩, (scanning_of_reaches polled mannered chain).finish ended⟩
  · intro scan chain
    have scanning := scanning_of_reaches polled mannered chain
    exact ⟨scanning.visited, scanning.left⟩

/-- A handler that adds a channel and removes its own. -/
theorem reported_slots_processed_sample :
    let set : PollSet := ⟨⟨3, pollRdNorm, pollRdNorm⟩ :: List.replicate 1023 ⟨-1, 0, 0⟩,
      by rw [List.length_cons, List.length_replicate, initPollSize]⟩
    let handlers : Handlers := fun _ =>
      ([.add (App.connectionChannel 1 5), .remove (App.connectionChannel 0 3)], [])
    ∃ final, (loop handlers).Returns set.scan final ∧ final.processed = [(0, 3)] := by
  intro set handlers
  have slots (slot : Pollfd) (member : slot ∈ set.eventSet) :
      slot = ⟨3, pollRdNorm, pollRdNorm⟩ ∨ slot = ⟨-1, 0, 0⟩ :=
    (List.mem_cons.mp member).imp_right List.eq_of_mem_replicate
  have polled : set.Polled := by
    intro slot member
    rcases slots slot member with rfl | rfl
    · decide
    · decide
  have ready : set.eventSet.countP Pollfd.reported = 1 := by
    rw [List.countP_cons_of_pos (by decide), List.countP_replicate, if_neg (by decide)]
  have first : pollBackend.next set.scan.set set.scan.batch =
      some (.activate 3 true false, 1, 0) := by
    simp only [pollBackend, PollSet.scan, ready]
    rfl
  have mannered (scan : PollScan)
      (chain : Relation.ReflTransGen (loop handlers).Step set.scan scan) :
      AllMannered handlers scan := by
    intro fd readable writable later taken
    rcases Relation.ReflTransGen.cases_head chain with rfl | ⟨next, step, rest⟩
    · cases first.symm.trans taken
      refine ⟨?_, nofun⟩
      intro _ _
      refine ⟨?_, rfl, trivial⟩
      intro slot member
      rcases slots slot member with rfl | rfl
      · decide
      · decide
    · have body := step.2
      simp only [loop, first, Except.ok.injEq] at body
      have ended : (loop handlers).done next = true := by
        rw [← body]
        rfl
      cases Loop.reaches_done ended rest
      rw [← body] at taken
      cases taken
  obtain ⟨final, returns, processed⟩ := (reported_slots_processed handlers set polled mannered).1
  refine ⟨final, returns, ?_⟩
  have silent : ∀ slot ∈ List.replicate 1023 (⟨-1, 0, 0⟩ : Pollfd), ¬ slot.reported = true := by
    intro slot member
    cases List.eq_of_mem_replicate member
    decide
  rw [processed]
  exact reportedSlots_append silent [⟨3, pollRdNorm, pollRdNorm⟩]

end PollScan

end Yolanda.Lib
