import Mathlib.Data.List.Nodup

/-! A queue of linked elements in a heap, known by pointers to its first and its last
element, and the sequence of values such pointers describe. -/

namespace Yolanda.Foundation

universe u
variable {α : Type u}

/-- An element, linked to the place of the next one. -/
structure Node (α : Type u) where
  value : α
  next : Option Nat

/-- The elements allocated so far, none of which is ever freed, and the two pointers. -/
structure LinkedQueue (α : Type u) where
  heap : List (Node α)
  head : Option Nat
  tail : Option Nat

/-- From this pointer the links lead over these places, with these values, to the end. -/
inductive Links (heap : List (Node α)) : Option Nat → List Nat → List α → Prop where
  | nil : Links heap none [] []
  | cons {address : Nat} {node : Node α} {addresses : List Nat} {values : List α}
      (place : heap[address]? = some node) (rest : Links heap node.next addresses values) :
      Links heap (some address) (address :: addresses) (node.value :: values)

namespace Links

variable {heap other : List (Node α)} {start : Option Nat} {addresses : List Nat}
  {values : List α}

private theorem head_eq (links : Links heap start addresses values) : start = addresses.head? := by
  cases links with
  | nil => rfl
  | cons place rest => rfl

theorem eq_nil_iff (links : Links heap start addresses values) : values = [] ↔ start = none := by
  cases links with
  | nil => simp
  | cons place rest => simp

/-- The first element has the first value and leads to the others. -/
theorem step {value : α} (links : Links heap start addresses (value :: values)) :
    ∃ address node others, start = some address ∧ heap[address]? = some node ∧
      node.value = value ∧ Links heap node.next others values := by
  cases links with
  | cons place rest => exact ⟨_, _, _, rfl, place, rfl, rest⟩

theorem inside (links : Links heap start addresses values) :
    ∀ address ∈ addresses, address < heap.length := by
  induction links with
  | nil =>
    intro address member
    cases member
  | cons place rest ih =>
    intro address member
    rcases List.mem_cons.mp member with here | later
    · rw [here]
      exact (List.getElem?_eq_some_iff.mp place).1
    · exact ih address later

/-- The last element has the last value and ends the list. -/
theorem last {value : α} (links : Links heap start addresses values)
    (ends : values.getLast? = some value) :
    ∃ address, addresses.getLast? = some address ∧
      heap[address]? = some { value, next := none } := by
  induction links with
  | nil => cases ends
  | @cons address node addresses values place rest ih =>
    cases values with
    | nil =>
      have ended := rest.eq_nil_iff.mp rfl
      have alone := List.head?_eq_none_iff.mp (rest.head_eq.symm.trans ended)
      obtain ⟨stored, next⟩ := node
      cases ended
      cases ends
      subst alone
      exact ⟨address, rfl, place⟩
    | cons second others =>
      rw [List.getLast?_cons_cons] at ends
      obtain ⟨final, last, here⟩ := ih ends
      exact ⟨final, by rw [List.getLast?_cons, last]; rfl, here⟩

/-- A new element, linked behind the last one, comes last. -/
private theorem link {last new : Nat} {node : Node α} {value : α}
    (links : Links heap start addresses values) (once : addresses.Nodup)
    (ends : addresses.getLast? = some last) (place : heap[last]? = some node)
    (linked : other[last]? = some { node with next := some new })
    (fresh : other[new]? = some { value, next := none })
    (agree : ∀ address ∈ addresses, address ≠ last → other[address]? = heap[address]?) :
    Links other start (addresses ++ [new]) (values ++ [value]) := by
  induction links with
  | nil => cases ends
  | @cons address first addresses values here rest ih =>
    cases addresses with
    | nil =>
      have same : address = last := Option.some.inj ends
      subst last
      cases here.symm.trans place
      have final := rest.eq_nil_iff.mpr rest.head_eq
      subst final
      have behind : Links other (some new) [new] [value] := .cons fresh .nil
      have whole : Links other (some address) (address :: [new])
          (({ node with next := some new } : Node α).value :: [value]) := .cons linked behind
      exact whole
    | cons second others =>
      rw [List.getLast?_cons_cons] at ends
      have behind := List.mem_of_getLast? ends
      have differs : address ≠ last := by
        intro same
        exact (List.nodup_cons.mp once).1 (same ▸ behind)
      have kept := agree address (List.mem_cons_self ..) differs
      refine .cons (kept.trans here) (ih (List.nodup_cons.mp once).2 ends ?_)
      intro later member
      exact agree later (List.mem_cons_of_mem _ member)

end Links

namespace LinkedQueue

def empty : LinkedQueue α :=
  { heap := [], head := none, tail := none }

/-- Allocate an element for a value and link it behind the last one. There is no such
element when a pointer leads nowhere. -/
def push (queue : LinkedQueue α) (value : α) : Option (LinkedQueue α) :=
  let new := queue.heap.length
  let heap := queue.heap ++ [{ value, next := none }]
  match queue.head, queue.tail with
  | none, _ => some { heap, head := some new, tail := some new }
  | some _, none => none
  | some _, some last =>
    match heap[last]? with
    | none => none
    | some node =>
      some { queue with
        heap := heap.set last { node with next := some new }
        tail := some new }

/-- Forget all elements, which stay allocated. -/
def reset (queue : LinkedQueue α) : LinkedQueue α :=
  { queue with head := none, tail := none }

/-- The pointers describe this sequence: both are null when it is empty, and otherwise the
first leads over all its values to the second. -/
def Describes (queue : LinkedQueue α) (values : List α) : Prop :=
  ∃ addresses, Links queue.heap queue.head addresses values ∧
    queue.tail = addresses.getLast? ∧ addresses.Nodup

variable {queue : LinkedQueue α} {values : List α}

theorem empty_describes : (empty : LinkedQueue α).Describes [] :=
  ⟨[], .nil, rfl, List.nodup_nil⟩

theorem reset_describes (queue : LinkedQueue α) : queue.reset.Describes [] :=
  ⟨[], .nil, rfl, List.nodup_nil⟩

theorem Describes.head_eq_none (describes : queue.Describes values) :
    queue.head = none ↔ values = [] := by
  obtain ⟨addresses, links, _⟩ := describes
  exact links.eq_nil_iff.symm

theorem Describes.tail_eq_none (describes : queue.Describes values) :
    queue.tail = none ↔ values = [] := by
  obtain ⟨addresses, links, ends, _⟩ := describes
  rw [links.eq_nil_iff, links.head_eq, ends]
  cases addresses with
  | nil => simp
  | cons address addresses => simp

/-- The second pointer leads to the element of the last value. -/
theorem Describes.tail_last (describes : queue.Describes values) {value : α}
    (ends : values.getLast? = some value) :
    ∃ last, queue.tail = some last ∧ queue.heap[last]? = some { value, next := none } := by
  obtain ⟨addresses, links, tail, _⟩ := describes
  obtain ⟨last, final, here⟩ := links.last ends
  exact ⟨last, tail.trans final, here⟩

/-- A value is added behind all others. -/
theorem Describes.push (describes : queue.Describes values) (value : α) :
    ∃ next, queue.push value = some next ∧ next.Describes (values ++ [value]) := by
  obtain ⟨addresses, links, ends, once⟩ := describes
  have inside := links.inside
  have absent : queue.heap.length ∉ addresses :=
    fun member => Nat.lt_irrefl _ (inside _ member)
  have grown : ∀ address ∈ addresses,
      (queue.heap ++ [{ value, next := none }])[address]? = queue.heap[address]? :=
    fun address member => List.getElem?_append_left (inside address member)
  have front := links.head_eq
  cases addresses with
  | nil =>
    have none := links.eq_nil_iff.mpr front
    subst none
    unfold LinkedQueue.push
    rw [front]
    refine ⟨_, rfl, [queue.heap.length], .cons (List.getElem?_concat_length ..) .nil, rfl,
      List.nodup_singleton _⟩
  | cons first others =>
    obtain ⟨last, final⟩ : ∃ last, (first :: others).getLast? = some last :=
      ⟨_, List.getLast?_eq_some_getLast (List.cons_ne_nil first others)⟩
    have member := List.mem_of_getLast? final
    obtain ⟨node, place⟩ : ∃ node, queue.heap[last]? = some node :=
      ⟨_, List.getElem?_eq_getElem (inside last member)⟩
    have here := (grown last member).trans place
    have bound := (List.getElem?_eq_some_iff.mp here).1
    have apart : last ≠ queue.heap.length := Nat.ne_of_lt (inside last member)
    unfold LinkedQueue.push
    rw [front, ends, final]
    simp only [List.head?_cons, here]
    refine ⟨_, rfl, first :: others ++ [queue.heap.length], ?_, ?_, ?_⟩
    · have start : queue.head = some first := front
      rw [start] at links
      apply links.link once final place
      · exact List.getElem?_set_self bound
      · rw [List.getElem?_set_ne apart]
        exact List.getElem?_concat_length ..
      · intro address within differs
        rw [List.getElem?_set_ne differs.symm]
        exact grown address within
    · exact List.getLast?_concat.symm
    · rw [List.nodup_append']
      refine ⟨once, List.nodup_singleton _, ?_⟩
      intro address within new
      rw [List.mem_singleton.mp new] at within
      exact absent within

end LinkedQueue

end Yolanda.Foundation
