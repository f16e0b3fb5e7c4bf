import Mathlib.Data.List.Induction
import PeerRelay.Dispatch
import PeerRelay.Proofs.Outcome
import PeerRelay.Proofs.Text.Ordered

/-!
# Dispatch, step by step

A dispatcher says in one go what comes of a message. The order in which it comes about is that of
the steps of `Dispatcher.steps`, which act on a state with a note of each event and each call. There
are two ways for it to go (`Dispatches`), and what they say is what the dispatcher says
(`Dispatches.dispatch_eq`) and what the steps do (`Dispatches.run_steps`).

Receivers are registered and messages are dispatched in any order, while others act on the state
(`Use`). After any history the receiver of a type is the one that was registered last for it
(`find?_after`), so that the next dispatch goes the way of that receiver (`dispatches_after`).
Whatever is kept by each use of a history is kept by the history (`after_induct`).
-/

namespace PeerRelay

/-- What a task does to the state keeps a property, also if it fails. -/
def Keeps {σ : Type} (P : σ → Prop) (task : Task σ Unit) : Prop :=
  ∀ s, P s → P (task.run.run s).2

/-- The events of a dispatch after the call of the receiver. -/
def reported (r : Received) : Except Failure Unit → List Event
  | .ok _ => [.inbound .handled r]
  | .error _ => []

theorem mem_reported {r : Received} {result : Except Failure Unit} :
    .inbound .handled r ∈ .inbound .received r :: reported r result ↔ result = .ok () := by
  have hne : Event.inbound .handled r ≠ .inbound .received r := fun h ↦
    nomatch congrArg Event.status h
  cases result with
  | error failure => simp [reported, hne]
  | ok _ => simp [reported]

namespace Dispatcher

variable {σ : Type}

/-! ### One dispatch -/

/-- What happens during a dispatch, other than to the state. -/
inductive Occurrence (σ : Type) where
  | emitted (e : Event)
  | called (receiver : Receiver σ) (r : Received)

/-- A state, with what happened so far. -/
structure Noted (σ : Type) where
  state : σ
  seen : List (Occurrence σ)

/-- Emits an event. -/
def emit (e : Event) : Task (Noted σ) Unit :=
  ExceptT.mk fun n ↦ (.ok (), { n with seen := n.seen ++ [.emitted e] })

/-- Calls a receiver. -/
def call (receiver : Receiver σ) (r : Received) : Task (Noted σ) Unit :=
  ExceptT.mk fun n ↦
    match (receiver r).run.run n.state with
    | (result, state) => (result, ⟨state, n.seen ++ [.called receiver r]⟩)

/-- The steps of a dispatch. -/
def steps (d : Dispatcher σ) (r : Received) : Task (Noted σ) Unit :=
  match d.receivers.find? r.message.kind with
  | none => throw (.invalidMessage (.unsupportedKind r.message.kind))
  | some receiver => do
    emit (.inbound .received r)
    call receiver r
    emit (.inbound .handled r)

/-- How a dispatch goes. If the type is unknown then nothing happens. Otherwise the receiver is
called once, behind the event that the message came, and its result is the result; a success is
reported. -/
inductive Dispatches (r : Received) (n : Noted σ) :
    Option (Receiver σ) → Outcome σ → Noted σ → Prop where
  | unknown : Dispatches r n none
    ⟨.error (.invalidMessage (.unsupportedKind r.message.kind)), [], n.state⟩ n
  | known {receiver : Receiver σ} {result : Except Failure Unit} {s' : σ}
    (hrun : (receiver r).run.run n.state = (result, s')) :
    Dispatches r n (some receiver) ⟨result, .inbound .received r :: reported r result, s'⟩
      ⟨s', n.seen ++ .emitted (.inbound .received r) :: .called receiver r ::
        (reported r result).map .emitted⟩

section Dispatches

variable {d : Dispatcher σ} {r : Received} {n n' : Noted σ} {receiver : Receiver σ}
  {outcome : Outcome σ}

theorem exists_dispatches (r : Received) (n : Noted σ) :
    ∀ receiver?, ∃ outcome n', Dispatches r n receiver? outcome n'
  | none => ⟨_, _, .unknown⟩
  | some _ => ⟨_, _, .known (Prod.eta _).symm⟩

/-- What the way says is what the dispatcher says. -/
theorem Dispatches.dispatch_eq
    (h : Dispatches r n (d.receivers.find? r.message.kind) outcome n') :
    d.dispatch r n.state = outcome := by
  generalize hfind : d.receivers.find? r.message.kind = receiver? at h
  cases h with
  | unknown => rw [dispatch, hfind]
  | @known receiver result s' hrun =>
    rw [dispatch, hfind]
    dsimp only
    rw [hrun]
    cases result <;> rfl

theorem run_call {s s' : σ} {result : Except Failure Unit}
    (h : (receiver r).run.run s = (result, s')) (seen : List (Occurrence σ)) :
    (call receiver r).run.run ⟨s, seen⟩ = (result, ⟨s', seen ++ [.called receiver r]⟩) := by
  show (match (receiver r).run.run s with
    | (result, state) => (result, (⟨state, seen ++ [Occurrence.called receiver r]⟩ : Noted σ))) = _
  rw [h]

/-- What the way says is what the steps do. -/
theorem Dispatches.run_steps
    (h : Dispatches r n (d.receivers.find? r.message.kind) outcome n') :
    (d.steps r).run.run n = (outcome.result, n') := by
  generalize hfind : d.receivers.find? r.message.kind = receiver? at h
  cases h with
  | unknown =>
    rw [steps, hfind]
    rfl
  | @known receiver result s' hrun =>
    have hreceived : (emit (.inbound .received r) : Task (Noted σ) Unit).run.run n =
        (.ok (), ⟨n.state, n.seen ++ [.emitted (.inbound .received r)]⟩) := rfl
    rw [steps, hfind]
    dsimp only
    rw [run_bind, hreceived]
    dsimp only
    rw [run_bind, run_call hrun, List.append_assoc]
    cases result with
    | error failure => rfl
    | ok _ =>
      show (Except.ok (), (⟨_, (n.seen ++ _) ++ [_]⟩ : Noted σ)) = _
      rw [List.append_assoc]
      rfl

/-- A dispatch goes the way of the receiver of the type. -/
theorem dispatches (d : Dispatcher σ) (r : Received) (n : Noted σ) :
    Dispatches r n (d.receivers.find? r.message.kind) (d.dispatch r n.state)
      ((d.steps r).run.run n).2 := by
  obtain ⟨outcome, n', h⟩ := exists_dispatches r n (d.receivers.find? r.message.kind)
  rwa [h.dispatch_eq, h.run_steps]

/-- What the receiver keeps is kept. -/
theorem Dispatches.keeps {P : σ → Prop} {receiver? : Option (Receiver σ)}
    (h : Dispatches r n receiver? outcome n')
    (hkeep : ∀ receiver, receiver? = some receiver → Keeps P (receiver r)) (hn : P n.state) :
    P n'.state := by
  cases h with
  | unknown => exact hn
  | @known receiver result s' hrun =>
    have hkept := hkeep receiver rfl _ hn
    rwa [hrun] at hkept

end Dispatches

/-! ### Histories -/

/-- What is done with a dispatcher, and what others do to the state meanwhile. -/
inductive Use (σ : Type) where
  | register (kind : String) (receiver : Receiver σ)
  | dispatch (r : Received)
  | meanwhile (change : σ → σ)

/-- A dispatcher with the state that its receivers act on. -/
structure Session (σ : Type) where
  dispatcher : Dispatcher σ
  noted : Noted σ

/-- The session after one more use. -/
def Session.use (t : Session σ) : Use σ → Session σ
  | .register kind receiver => { t with dispatcher := t.dispatcher.register kind receiver }
  | .dispatch r => { t with noted := ((t.dispatcher.steps r).run.run t.noted).2 }
  | .meanwhile change => { t with noted := { t.noted with state := change t.noted.state } }

/-- The session that begins in a state without receivers, after some uses. -/
def Session.after (s : σ) (history : List (Use σ)) : Session σ :=
  history.foldl Session.use ⟨.empty, ⟨s, []⟩⟩

/-- The receiver that a use registers for a type. -/
def Use.registers? (kind : String) : Use σ → Option (Receiver σ)
  | .register kind' receiver => if kind' = kind then some receiver else none
  | .dispatch _ | .meanwhile _ => none

/-- The receiver that was registered last for a type. -/
def lastRegistered (kind : String) (history : List (Use σ)) : Option (Receiver σ) :=
  history.reverse.findSome? (Use.registers? kind)

/-- What a use does to the state keeps a property; a dispatch does what its receiver does. -/
def Use.Keeps (P : σ → Prop) : Use σ → Prop
  | .register _ receiver => ∀ r, PeerRelay.Keeps P (receiver r)
  | .dispatch _ => True
  | .meanwhile change => ∀ s, P s → P (change s)

section History

variable {s : σ} {history : List (Use σ)} {kind : String} {r : Received} {receiver : Receiver σ}

theorem after_concat (s : σ) (history : List (Use σ)) (u : Use σ) :
    Session.after s (history ++ [u]) = (Session.after s history).use u :=
  List.foldl_concat ..

theorem lastRegistered_concat (kind : String) (history : List (Use σ)) (u : Use σ) :
    lastRegistered kind (history ++ [u]) =
      (u.registers? kind).or (lastRegistered kind history) := by
  rw [lastRegistered, List.reverse_concat, List.findSome?_cons]
  cases u.registers? kind <;> rfl

/-- The receiver of a type is the one that was registered last for it. -/
theorem find?_after (s : σ) (history : List (Use σ)) (kind : String) :
    (Session.after s history).dispatcher.receivers.find? kind = lastRegistered kind history := by
  induction history using List.reverseRecOn with
  | nil => rfl
  | append_singleton history u ih =>
    rw [after_concat, lastRegistered_concat, ← ih]
    cases u with
    | dispatch r => rfl
    | meanwhile change => rfl
    | register kind' receiver =>
      show ((Session.after s history).dispatcher.receivers.insert kind' receiver).find? kind = _
      rw [Text.TextMap.insert, Text.TextMap.find?_alter, Use.registers?]
      by_cases hkind : kind = kind'
      · rw [if_pos hkind, if_pos hkind.symm]
        rfl
      · rw [if_neg hkind, if_neg (Ne.symm hkind)]
        rfl

theorem registered_of_lastRegistered (h : lastRegistered kind history = some receiver) :
    .register kind receiver ∈ history := by
  obtain ⟨u, hu, hregisters⟩ := List.exists_of_findSome?_eq_some h
  cases u with
  | dispatch r => cases hregisters
  | meanwhile change => cases hregisters
  | register kind' receiver' =>
    rw [Use.registers?] at hregisters
    split at hregisters
    · rename_i hkind
      cases hregisters
      exact hkind ▸ List.mem_reverse.1 hu
    · cases hregisters

/-- The next dispatch goes the way of the receiver that was registered last for the type. -/
theorem dispatches_after (s : σ) (history : List (Use σ)) (r : Received) :
    let before := Session.after s history
    Dispatches r before.noted (lastRegistered r.message.kind history)
      (before.dispatcher.dispatch r before.noted.state)
      (Session.after s (history ++ [.dispatch r])).noted := by
  rw [← find?_after s, after_concat]
  exact dispatches _ r _

/-- What each use keeps is kept by a history. -/
theorem after_induct {P : σ → Prop} (h0 : P s) (hkeep : ∀ u ∈ history, u.Keeps P) :
    P (Session.after s history).noted.state := by
  induction history using List.reverseRecOn with
  | nil => exact h0
  | append_singleton history u ih =>
    have hbefore := ih fun u hu ↦ hkeep u (List.mem_append_left _ hu)
    have hlast := hkeep u (List.mem_append_right _ (List.mem_singleton_self u))
    cases u with
    | register kind receiver =>
      rw [after_concat]
      exact hbefore
    | meanwhile change =>
      rw [after_concat]
      exact hlast _ hbefore
    | dispatch r =>
      -- the receiver is one of those that were registered
      refine (dispatches_after s history r).keeps (fun receiver hreceiver ↦ ?_) hbefore
      exact hkeep _ (List.mem_append_left _ (registered_of_lastRegistered hreceiver)) r

end History

end Dispatcher

end PeerRelay
