import Yolanda.App.ServerAdvanced

/-! A server without its descriptors and traces is an event loop: every run of the server is a
run of its loop. -/

namespace Yolanda.App

open Foundation

/-- The changes of write events that an action asks for. -/
def OwnAction.changes (number : Nat) : OwnAction → Changes
  | .write => []
  | .shutdown => []
  | .enable => [(number, true)]
  | .disable => [(number, false)]

namespace Server

variable {server next : Server} {own : Bool} {number : Nat} {fd : Int}

private theorem handlePending_loop {element : ChannelElement Nat}
    (success : server.handlePending element = .ok next) :
    server.registry.handlePending element = .ok next.registry ∧ next.pending = server.pending ∧
      next.reported = server.reported := by
  obtain ⟨registry, handled, rest⟩ := bind_eq_ok.mp success
  cases passed : server.registry.controlled element with
  | none =>
    rw [passed] at rest
    cases rest
    exact ⟨handled, rfl, rfl⟩
  | some number =>
    rw [passed] at rest
    cases rest
    exact ⟨handled, rfl, rfl⟩

private theorem handleAll_loop {elements : List (ChannelElement Nat)}
    (success : server.handleAll elements = .ok next) :
    server.registry.handleAll elements = .ok next.registry ∧ next.pending = server.pending ∧
      next.reported = server.reported := by
  induction elements generalizing server with
  | nil =>
    cases success
    exact ⟨rfl, rfl, rfl⟩
  | cons element elements ih =>
    obtain ⟨middle, first, rest⟩ := bind_eq_ok.mp success
    obtain ⟨handled, pending, reported⟩ := handlePending_loop first
    obtain ⟨all, pending', reported'⟩ := ih rest
    exact ⟨bind_eq_ok.mpr ⟨_, handled, all⟩, pending'.trans pending, reported'.trans reported⟩

theorem handlePendingChannel_loop (success : server.handlePendingChannel = .ok next) :
    server.toEventLoop.handlePendingChannel = .ok next.toEventLoop := by
  obtain ⟨handled, all, rest⟩ := bind_eq_ok.mp success
  cases rest
  obtain ⟨same, _, reported⟩ := handleAll_loop all
  refine bind_eq_ok.mpr ⟨_, same, ?_⟩
  rw [← reported]
  rfl

theorem doChannelEvent_loop {type : Nat} (success : server.doChannelEvent own number type = .ok next) :
    server.toEventLoop.doChannelEvent own number type = .ok next.toEventLoop := by
  cases own with
  | true => exact handlePendingChannel_loop success
  | false =>
    cases success
    rfl

theorem change_loop {enable : Bool} (success : server.change own number enable = .ok next) :
    server.toEventLoop.change own number enable = .ok next.toEventLoop := by
  unfold change at success
  unfold EventLoop.change
  cases place : server.registry.channels[number]? with
  | none =>
    simp only [place] at success
    cases success
    rfl
  | some channel =>
    simp only [place] at success
    exact doChannelEvent_loop success

/-- Of the actions of a callback the loop sees the changes of write events. -/
theorem actAll_loop {actions : List OwnAction} (success : server.actAll own number actions = .ok next) :
    server.toEventLoop.changeAll own (actions.flatMap (OwnAction.changes number)) =
      .ok next.toEventLoop := by
  induction actions generalizing server with
  | nil =>
    cases success
    rfl
  | cons action actions ih =>
    obtain ⟨middle, first, rest⟩ := bind_eq_ok.mp success
    rw [List.flatMap_cons]
    cases action with
    | write =>
      cases first
      exact @ih (server.record number [.write]) rest
    | shutdown =>
      cases first
      exact @ih (server.record number [.shutdown]) rest
    | enable => exact bind_eq_ok.mpr ⟨_, change_loop first, ih rest⟩
    | disable => exact bind_eq_ok.mpr ⟨_, change_loop first, ih rest⟩

theorem hold_loop (server : Server) (built : EventLoop) (role : Role) (fd : Int) :
    (server.hold built role fd).toEventLoop = built := by
  unfold hold
  split
  · rfl
  · dsimp only
    split <;> rfl

theorem establish_loop {role : Role} {completed : List OwnAction}
    (success : server.establish own role fd completed = .ok next) :
    ∃ changes, server.toEventLoop.establish own role fd changes = .ok next.toEventLoop := by
  refine ⟨completed.flatMap (OwnAction.changes server.registry.channels.length), ?_⟩
  unfold establish at success
  unfold EventLoop.establish
  cases built : server.build role fd with
  | none =>
    simp only [built] at success
    cases success
    rfl
  | some loop =>
    simp only [built] at success
    obtain ⟨ready, called, added⟩ := bind_eq_ok.mp success
    refine bind_eq_ok.mpr ⟨ready.toEventLoop, ?_, doChannelEvent_loop added⟩
    have changed := actAll_loop called
    rw [hold_loop] at changed
    cases role with
    | connection => exact changed
    | wakeup => exact changed
    | listening => exact changed

theorem closeConnection_loop {actions : List OwnAction}
    (success : server.closeConnection number actions = .ok next) :
    ∃ changes, server.toEventLoop.closeConnection number changes = .ok next.toEventLoop := by
  obtain ⟨removed, first, called⟩ := bind_eq_ok.mp success
  have changed := actAll_loop called
  exact ⟨_, bind_eq_ok.mpr ⟨_, doChannelEvent_loop first, changed⟩⟩

theorem readCallback_loop {channel : Channel} {answers : Answers}
    (success : server.readCallback number channel answers = .ok next) :
    ∃ reaction, server.toEventLoop.readCallback number channel reaction = .ok next.toEventLoop := by
  unfold readCallback at success
  unfold EventLoop.readCallback
  split at success
  case h_1 role =>
    rw [role]
    cases here : answers.here with
    | true =>
      rw [here] at success
      obtain ⟨changes, established⟩ := establish_loop success
      exact ⟨.accepted answers.accepted true changes, established⟩
    | false =>
      rw [here] at success
      cases success
      exact ⟨.accepted answers.accepted false [], rfl⟩
  case h_2 role =>
    rw [role]
    unfold handleRead at success
    split at success
    case h_1 =>
      obtain ⟨changes, closed⟩ := closeConnection_loop success
      exact ⟨.closed changes, closed⟩
    case h_2 =>
      have changed := actAll_loop success
      exact ⟨.message _, changed⟩
  case h_3 other read =>
    cases success
    refine ⟨.message [], ?_⟩
    split
    case h_1 established _ => exact absurd established other
    case h_2 established _ => exact absurd established other
    case h_3 connected _ => exact absurd connected read
    case h_4 connected _ => exact absurd connected read
    case h_5 => rfl

theorem writeCallback_loop {channel : Channel} {answers : Answers}
    (success : server.writeCallback number channel answers = .ok next) :
    ∃ changes, server.toEventLoop.writeCallback channel changes = .ok next.toEventLoop := by
  unfold writeCallback at success
  unfold EventLoop.writeCallback
  cases role : channel.eventWriteCallback with
  | none =>
    simp only [role] at success
    cases success
    exact ⟨[], rfl⟩
  | some callback =>
    simp only [role] at success ⊢
    cases callback with
    | handleWrite =>
      have changed := actAll_loop success
      exact ⟨_, changed⟩
    | handleWakeup =>
      cases success
      exact ⟨[], rfl⟩
    | handleConnectionEstablished =>
      cases success
      exact ⟨[], rfl⟩
    | handleRead =>
      cases success
      exact ⟨[], rfl⟩

theorem activateRead_loop {answers : Answers} (success : server.activateRead fd answers = .ok next) :
    ∃ reaction, server.toEventLoop.activateRead fd reaction = .ok next.toEventLoop := by
  obtain ⟨found, activated, rest⟩ := bind_eq_ok.mp success
  cases found with
  | none =>
    cases rest
    exact ⟨.message [], bind_eq_ok.mpr ⟨_, activated, rfl⟩⟩
  | some entry =>
    obtain ⟨reaction, called⟩ := readCallback_loop rest
    exact ⟨reaction, bind_eq_ok.mpr ⟨_, activated, called⟩⟩

theorem activateWrite_loop {answers : Answers}
    (success : server.activateWrite fd answers = .ok next) :
    ∃ changes, server.toEventLoop.activateWrite fd changes = .ok next.toEventLoop := by
  obtain ⟨found, activated, rest⟩ := bind_eq_ok.mp success
  cases found with
  | none =>
    cases rest
    exact ⟨[], bind_eq_ok.mpr ⟨_, activated, rfl⟩⟩
  | some entry =>
    obtain ⟨changes, called⟩ := writeCallback_loop rest
    exact ⟨changes, bind_eq_ok.mpr ⟨_, activated, called⟩⟩

theorem closeFailed_loop (server : Server) (fd : Int) :
    (server.closeFailed fd).toEventLoop = { server.toEventLoop with
      registry := { server.registry with kernel := server.registry.kernel.close fd } } := by
  unfold closeFailed
  split
  · rfl
  · rfl

theorem dispatchEvent_loop {event : EpollEvent} {answers : Answers}
    (success : server.dispatchEvent event answers = .ok next) :
    ∃ reaction changes, server.toEventLoop.dispatchEvent event reaction changes =
      .ok next.toEventLoop := by
  unfold dispatchEvent at success
  unfold EventLoop.dispatchEvent
  cases failed : event.failed with
  | true =>
    simp only [failed, if_true] at success
    cases success
    refine ⟨.message [], [], ?_⟩
    rw [if_pos rfl, closeFailed_loop]
  | false =>
    simp only [failed, Bool.false_eq_true, if_false] at success ⊢
    obtain ⟨middle, read, written⟩ := bind_eq_ok.mp success
    have first : ∃ reaction, (if event.events &&& epollIn ≠ 0 then
        server.toEventLoop.activateRead event.fd reaction
      else .ok server.toEventLoop) = .ok middle.toEventLoop := by
      by_cases readable : event.events &&& epollIn ≠ 0
      · simp only [if_pos readable] at read ⊢
        exact activateRead_loop read
      · simp only [if_neg readable] at read ⊢
        cases read
        exact ⟨.message [], rfl⟩
    have second : ∃ changes, (if event.events &&& epollOut ≠ 0 then
        middle.toEventLoop.activateWrite event.fd changes
      else .ok middle.toEventLoop) = .ok next.toEventLoop := by
      by_cases writable : event.events &&& epollOut ≠ 0
      · simp only [if_pos writable] at written ⊢
        exact activateWrite_loop written
      · simp only [if_neg writable] at written ⊢
        cases written
        exact ⟨[], rfl⟩
    obtain ⟨reaction, reads⟩ := first
    obtain ⟨changes, writes⟩ := second
    exact ⟨reaction, changes, bind_eq_ok.mpr ⟨_, reads, writes⟩⟩

/-- The descriptors that the rest of the process closes are not in the tables of the loop. -/
def Foreign (server : Server) (event : ServerEvent) : Prop :=
  ∀ fd, event = .closes fd → server.owned fd = none → server.toEventLoop.holds fd = false

/-- A step of the server is a step of its loop, or the loop does not see it. -/
theorem serverStep_loop {event : ServerEvent} (foreign : Foreign server event)
    (success : serverStep server event = .ok next) :
    next.toEventLoop = server.toEventLoop ∨
      ∃ event, loopStep server.toEventLoop event = .ok next.toEventLoop := by
  cases event with
  | establish own role fd completed =>
    obtain ⟨changes, established⟩ := establish_loop success
    exact .inr ⟨.establish own role fd changes, established⟩
  | opens fd =>
    cases success
    exact .inr ⟨.opens fd, rfl⟩
  | closes fd =>
    unfold serverStep at success
    by_cases owned : server.owned fd ≠ none
    · simp only [if_pos owned] at success
      cases success
      exact .inl rfl
    · simp only [if_neg owned] at success
      cases success
      have unheld := foreign fd rfl (not_not.mp owned)
      refine .inr ⟨.closes fd, ?_⟩
      simp only [loopStep, unheld, Bool.false_eq_true, if_false]
  | arrive number bytes =>
    left
    unfold serverStep at success
    by_cases beyond : server.registry.channels.length ≤ number
    · simp only [if_pos beyond] at success
      cases success
      rfl
    · simp only [if_neg beyond] at success
      cases success
      rfl
  | epollWait events =>
    refine .inr ⟨.epollWait events, ?_⟩
    unfold serverStep at success
    unfold loopStep
    by_cases allowed : server.mayReport events = true
    · simp only [if_pos allowed] at success ⊢
      cases success
      rfl
    · simp only [if_neg allowed] at success ⊢
      cases success
      rfl
  | dispatch answers =>
    unfold serverStep at success
    cases reported : server.reported with
    | nil =>
      simp only [reported] at success
      cases success
      exact .inl rfl
    | cons head events =>
      simp only [reported] at success
      obtain ⟨reaction, changes, dispatched⟩ := dispatchEvent_loop success
      refine .inr ⟨.dispatch reaction changes, ?_⟩
      simp only [loopStep, reported]
      exact dispatched
  | handlePending => exact .inr ⟨.handlePending, handlePendingChannel_loop success⟩

/-- Every run of a server is a run of its loop. -/
theorem run_loop {events : List ServerEvent} (along : Along serverStep Foreign server events)
    (success : run serverStep server events = .ok next) :
    ∃ events, run loopStep server.toEventLoop events = .ok next.toEventLoop := by
  induction events generalizing server with
  | nil =>
    cases success
    exact ⟨[], rfl⟩
  | cons event events ih =>
    obtain ⟨middle, taken, rest⟩ := run_cons_ok.mp success
    obtain ⟨later, loops⟩ := ih (along.2 middle taken) rest
    rcases serverStep_loop along.1 taken with same | ⟨step, stepped⟩
    · exact ⟨later, same ▸ loops⟩
    · exact ⟨step :: later, (run_cons stepped later).trans loops⟩

end Server

end Yolanda.App
