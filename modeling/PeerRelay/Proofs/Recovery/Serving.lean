import PeerRelay.Proofs.Outcome
import PeerRelay.Proofs.Recovery.Priorities

/-!
# How a recovery request is served

What is called while a request is served is observed on handlers and a sender that note each call
beside the state (`Handler.watched`, `noting`); noting changes neither results nor states.

Handlers that run one after the other either all succeed (`Passes`), or one of them is the first to
fail, and then those before it have succeeded and those behind it are not called (`exists_passes`).
Both runs are given on the handlers and on the watched ones by the same two laws
(`runAll_of_passes`, `runAll_of_fails`). With the four ways in which serving can end (`Serves`) this
is all that serving does (`serve_in_order`).
-/

namespace PeerRelay

open Calendar

/-! ### Dates under a key -/

namespace Received

variable {r : Received} {key : String}

/-- The first value of the key is a date. -/
def HasDate (r : Received) (key : String) (date : Instant) : Prop :=
  ∃ raw, r.metadata? key = some raw ∧ DateText.decode raw = .ok date

/-- The key has no value, or its first value is no date. -/
inductive LacksDate (r : Received) (key : String) : Failure → Prop where
  | missing (hnone : r.metadata? key = none) :
    LacksDate r key (.invalidMessage (.missingMetadata key r.message.id))
  | noDate {raw : String} {fault : ReadingFault} (hraw : r.metadata? key = some raw)
    (hfault : DateText.decode raw = .error fault) :
    LacksDate r key (.invalidMessage (.badMetadataDate raw key r.message.id fault))

theorem metadataDate_of_hasDate {date : Instant} (h : r.HasDate key date) :
    r.metadataDate key = .ok date := by
  obtain ⟨raw, hraw, hdate⟩ := h
  rw [metadataDate, metadataValue, hraw, ok_bind, readDate, hdate]

theorem metadataDate_of_lacksDate {failure : Failure} (h : r.LacksDate key failure) :
    r.metadataDate key = .error failure := by
  cases h with
  | missing hnone =>
    rw [metadataDate, metadataValue, hnone]
    rfl
  | noDate hraw hfault => rw [metadataDate, metadataValue, hraw, ok_bind, readDate, hfault]

theorem hasDate_or_lacksDate (r : Received) (key : String) :
    (∃ date, r.HasDate key date) ∨ ∃ failure, r.LacksDate key failure := by
  cases hraw : r.metadata? key with
  | none => exact Or.inr ⟨_, .missing hraw⟩
  | some raw =>
    cases hdate : DateText.decode raw with
    | ok date => exact Or.inl ⟨date, raw, hraw, hdate⟩
    | error fault => exact Or.inr ⟨_, .noDate hraw hdate⟩

end Received

namespace Recovery

/-! ### The window of a request -/

section Window

variable {request : Received}

/-- The request has the bounds of the window under their keys. -/
def HasWindow (request : Received) (window : Window) : Prop :=
  request.HasDate dateMinKey window.dateMin ∧ request.HasDate dateMaxKey window.dateMax

/-- The request lacks its lower bound, or else its upper bound. -/
inductive LacksWindow (request : Received) : Failure → Prop where
  | lower {failure : Failure} (h : request.LacksDate dateMinKey failure) :
    LacksWindow request failure
  | upper {failure : Failure} {dateMin : Instant} (hmin : request.HasDate dateMinKey dateMin)
    (h : request.LacksDate dateMaxKey failure) : LacksWindow request failure

theorem HasWindow.read_eq {window : Window} (h : HasWindow request window) :
    Window.read request = .ok window := by
  rw [Window.read, Received.metadataDate_of_hasDate h.1, Received.metadataDate_of_hasDate h.2]
  rfl

theorem LacksWindow.read_eq {failure : Failure} (h : LacksWindow request failure) :
    Window.read request = .error failure := by
  cases h with
  | lower h =>
    rw [Window.read, Received.metadataDate_of_lacksDate h]
    rfl
  | upper hmin h =>
    rw [Window.read, Received.metadataDate_of_hasDate hmin, ok_bind,
      Received.metadataDate_of_lacksDate h]
    rfl

theorem hasWindow_or_lacksWindow (request : Received) :
    (∃ window, HasWindow request window) ∨ ∃ failure, LacksWindow request failure := by
  rcases request.hasDate_or_lacksDate dateMinKey with ⟨dateMin, hmin⟩ | ⟨failure, h⟩
  · rcases request.hasDate_or_lacksDate dateMaxKey with ⟨dateMax, hmax⟩ | ⟨failure, h⟩
    · exact Or.inl ⟨⟨dateMin, dateMax⟩, hmin, hmax⟩
    · exact Or.inr ⟨failure, .upper hmin h⟩
  · exact Or.inr ⟨failure, .lower h⟩

end Window

variable {σ : Type}

/-! ### Calls -/

/-- What serving a request calls. -/
inductive Call (σ : Type) where
  | handler (h : Handler σ) (window : Window) (request : Received)
  /-- The completion notice is handed over. -/
  | send (notice : Message)

/-- A state with the calls that were made so far. -/
structure Watched (σ : Type) where
  state : σ
  calls : List (Call σ)

/-- A task whose call is noted as it is made. -/
def noting (call : Call σ) (task : Task σ Unit) : Task (Watched σ) Unit :=
  ExceptT.mk fun w ↦
    match task.run.run w.state with
    | (result, state) => (result, ⟨state, w.calls ++ [call]⟩)

/-- A handler whose calls are noted. -/
def Handler.watched (h : Handler σ) : Handler (Watched σ) where
  name := h.name
  priority := h.priority
  run window request := noting (.handler h window request) (h.run window request)

theorem run_noting {call : Call σ} {task : Task σ Unit} {s s' : σ} {result : Except Failure Unit}
    {calls : List (Call σ)} (h : task.run.run s = (result, s')) :
    (noting call task).run.run ⟨s, calls⟩ = (result, ⟨s', calls ++ [call]⟩) := by
  show (match task.run.run s with
    | (result, state) => (result, (⟨state, calls ++ [call]⟩ : Watched σ))) = _
  rw [h]

theorem inOrder_watched (handlers : List (Handler σ)) :
    inOrder (handlers.map Handler.watched) = (inOrder handlers).map Handler.watched :=
  (List.map_mergeSort (f := Handler.watched) fun _ _ _ _ ↦ rfl).symm

/-! ### Handlers one after the other -/

section RunAll

variable {window : Window} {request : Received} {s s₁ s₂ : σ} {h : Handler σ}
  {handlers before after : List (Handler σ)} {failure : Failure}

/-- All handlers succeed, each on the state that the one before it has left. -/
inductive Passes (window : Window) (request : Received) : List (Handler σ) → σ → σ → Prop where
  | nil {s : σ} : Passes window request [] s s
  | cons {h : Handler σ} {rest : List (Handler σ)} {s s₁ s₂ : σ}
    (hrun : (h.run window request).run.run s = (.ok (), s₁))
    (hrest : Passes window request rest s₁ s₂) : Passes window request (h :: rest) s s₂

/-- Either all handlers succeed, or one of them is the first to fail. -/
theorem exists_passes (window : Window) (request : Received) (handlers : List (Handler σ)) (s : σ) :
    (∃ s₁, Passes window request handlers s s₁) ∨
      ∃ before h after s₁ failure s₂, handlers = before ++ h :: after ∧
        Passes window request before s s₁ ∧
        (h.run window request).run.run s₁ = (.error failure, s₂) := by
  induction handlers generalizing s with
  | nil => exact Or.inl ⟨s, .nil⟩
  | cons h rest ih =>
    cases hrun : (h.run window request).run.run s with
    | mk result s₁ =>
      cases result with
      | error failure => exact Or.inr ⟨[], h, rest, s, failure, s₁, rfl, .nil, hrun⟩
      | ok _ =>
        rcases ih s₁ with ⟨s₂, hrest⟩ | ⟨before, h', after, s₂, failure, s₃, rfl, hbefore, hfails⟩
        · exact Or.inl ⟨s₂, .cons hrun hrest⟩
        · exact Or.inr ⟨h :: before, h', after, s₂, failure, s₃, rfl, .cons hrun hbefore, hfails⟩

theorem runAll_of_passes (hpasses : Passes window request handlers s s₁) :
    (runAll window request handlers).run.run s = (.ok (), s₁) := by
  induction hpasses with
  | nil => rfl
  | cons hrun _ ih =>
    rw [runAll, run_bind, hrun]
    exact ih

theorem runAll_of_fails (hbefore : Passes window request before s s₁)
    (hfails : (h.run window request).run.run s₁ = (.error failure, s₂)) :
    (runAll window request (before ++ h :: after)).run.run s = (.error failure, s₂) := by
  induction hbefore with
  | nil =>
    rw [List.nil_append, runAll, run_bind, hfails]
  | cons hrun _ ih =>
    rw [List.cons_append, runAll, run_bind, hrun]
    exact ih hfails

/-- The calls of handlers for a request. -/
def callsOf (window : Window) (request : Received) (handlers : List (Handler σ)) : List (Call σ) :=
  handlers.map fun h ↦ .handler h window request

theorem Passes.watched (hpasses : Passes window request handlers s s₁) (calls : List (Call σ)) :
    Passes window request (handlers.map Handler.watched) ⟨s, calls⟩
      ⟨s₁, calls ++ callsOf window request handlers⟩ := by
  induction hpasses generalizing calls with
  | nil =>
    rw [callsOf, List.map_nil, List.map_nil, List.append_nil]
    exact .nil
  | @cons h _ _ _ _ hrun _ ih =>
    have hrest := ih (calls ++ [.handler h window request])
    rw [List.append_assoc] at hrest
    exact .cons (run_noting hrun) hrest

end RunAll

/-! ### Requests -/

section Serve

variable {provided : Except Failure (List (Handler σ))} {send : Message → Task σ Unit}
  {stamp : Message.Stamp} {request : Received} {s s' : σ} {result : Except Failure Unit}
  {calls : List (Call σ)}

/-- How a request is served from a state: the result, the state that is left, and the calls. -/
inductive Serves (provided : Except Failure (List (Handler σ))) (send : Message → Task σ Unit)
    (stamp : Message.Stamp) (request : Received) (s : σ) :
    Except Failure Unit → σ → List (Call σ) → Prop where
  /-- There are no handlers to be had. -/
  | unprovided {failure : Failure} (hprovided : provided = .error failure) :
    Serves provided send stamp request s (.error failure) s []
  /-- The request has no window. -/
  | lacking {handlers : List (Handler σ)} {failure : Failure} (hprovided : provided = .ok handlers)
    (hlacking : LacksWindow request failure) :
    Serves provided send stamp request s (.error failure) s []
  /-- A handler fails, and those before it in order of priority have succeeded. -/
  | failing {handlers before after : List (Handler σ)} {h : Handler σ} {window : Window}
    {s₁ s₂ : σ} {failure : Failure} (hprovided : provided = .ok handlers)
    (hwindow : HasWindow request window) (hsorted : StablySorted handlers (before ++ h :: after))
    (hbefore : Passes window request before s s₁)
    (hfails : (h.run window request).run.run s₁ = (.error failure, s₂)) :
    Serves provided send stamp request s (.error failure) s₂
      (callsOf window request (before ++ [h]))
  /-- All handlers succeed, and the notice is handed over. -/
  | finished {handlers sorted : List (Handler σ)} {window : Window} {s₁ s₂ : σ}
    {result : Except Failure Unit} (hprovided : provided = .ok handlers)
    (hwindow : HasWindow request window) (hsorted : StablySorted handlers sorted)
    (hpasses : Passes window request sorted s s₁)
    (hsend : (send (window.finished stamp request)).run.run s₁ = (result, s₂)) :
    Serves provided send stamp request s result s₂
      (callsOf window request sorted ++ [.send (window.finished stamp request)])

/-- Serving a request ends in one of the four ways. -/
theorem exists_serves (provided : Except Failure (List (Handler σ))) (send : Message → Task σ Unit)
    (stamp : Message.Stamp) (request : Received) (s : σ) :
    ∃ result s' calls, Serves provided send stamp request s result s' calls := by
  cases hprovided : provided with
  | error failure => exact ⟨_, _, _, .unprovided rfl⟩
  | ok handlers =>
    rcases hasWindow_or_lacksWindow request with ⟨window, hwindow⟩ | ⟨failure, hlacking⟩
    · have hsorted := stablySorted_inOrder handlers
      rcases exists_passes window request (inOrder handlers) s with
        ⟨s₁, hpasses⟩ | ⟨before, h, after, s₁, failure, s₂, hsplit, hbefore, hfails⟩
      · exact ⟨_, _, _, .finished rfl hwindow hsorted hpasses rfl⟩
      · rw [hsplit] at hsorted
        exact ⟨_, _, _, .failing rfl hwindow hsorted hbefore hfails⟩
    · exact ⟨_, _, _, .lacking rfl hlacking⟩

theorem run_serve_of_hasWindow {handlers : List (Handler σ)} {window : Window}
    (hwindow : HasWindow request window) (s : σ) :
    (serve (.ok handlers) send stamp request).run.run s =
      (runAll window request (inOrder handlers) >>= fun _ ↦
        send (window.finished stamp request)).run.run s := by
  have hread : (serve.liftExcept (Window.read request) : Task σ Window).run.run s =
      (.ok window, s) := by
    rw [hwindow.read_eq]
    rfl
  rw [serve, run_bind]
  show ((serve.liftExcept (Window.read request) : Task σ Window) >>= _).run.run s = _
  rw [run_bind, hread]

theorem run_serve_of_lacksWindow {handlers : List (Handler σ)} {failure : Failure}
    (hlacking : LacksWindow request failure) (s : σ) :
    (serve (.ok handlers) send stamp request).run.run s = (.error failure, s) := by
  have hread : (serve.liftExcept (Window.read request) : Task σ Window).run.run s =
      (.error failure, s) := by
    rw [hlacking.read_eq]
    rfl
  rw [serve, run_bind]
  show ((serve.liftExcept (Window.read request) : Task σ Window) >>= _).run.run s = _
  rw [run_bind, hread]

/-- What the four ways say is what serving does. -/
theorem Serves.run_eq (h : Serves provided send stamp request s result s' calls) :
    (serve provided send stamp request).run.run s = (result, s') := by
  cases h with
  | unprovided hprovided =>
    rw [hprovided]
    rfl
  | lacking hprovided hlacking =>
    rw [hprovided]
    exact run_serve_of_lacksWindow hlacking s
  | failing hprovided hwindow hsorted hbefore hfails =>
    rw [hprovided, run_serve_of_hasWindow hwindow, (stablySorted_inOrder _).unique hsorted,
      run_bind, runAll_of_fails hbefore hfails]
  | finished hprovided hwindow hsorted hpasses hsend =>
    rw [hprovided, run_serve_of_hasWindow hwindow, (stablySorted_inOrder _).unique hsorted,
      run_bind, runAll_of_passes hpasses]
    exact hsend

/-- Serving a request with all its calls noted. -/
def serveWatched (provided : Except Failure (List (Handler σ))) (send : Message → Task σ Unit)
    (stamp : Message.Stamp) : Receiver (Watched σ) :=
  serve (provided.map (·.map Handler.watched)) (fun notice ↦ noting (.send notice) (send notice))
    stamp

theorem StablySorted.watched {handlers sorted : List (Handler σ)}
    (hsorted : StablySorted handlers sorted) :
    StablySorted (handlers.map Handler.watched) (sorted.map Handler.watched) := by
  rw [← (stablySorted_inOrder handlers).unique hsorted, ← inOrder_watched]
  exact stablySorted_inOrder _

/-- Serving is the same with its calls noted, and the calls are those that the way tells. -/
theorem Serves.watched (h : Serves provided send stamp request s result s' calls) :
    (serveWatched provided send stamp request).run.run ⟨s, []⟩ = (result, ⟨s', calls⟩) := by
  suffices hserves : ∃ noted, Serves (provided.map (·.map Handler.watched))
      (fun notice ↦ noting (.send notice) (send notice)) stamp request ⟨s, []⟩ result ⟨s', calls⟩
      noted from hserves.choose_spec.run_eq
  cases h with
  | unprovided hprovided => exact ⟨_, .unprovided (by rw [hprovided]; rfl)⟩
  | lacking hprovided hlacking => exact ⟨_, .lacking (by rw [hprovided]; rfl) hlacking⟩
  | failing hprovided hwindow hsorted hbefore hfails =>
    have hordered := hsorted.watched
    rw [List.map_append, List.map_cons] at hordered
    rw [callsOf, List.map_append]
    exact ⟨_, .failing (by rw [hprovided]; rfl) hwindow hordered (hbefore.watched [])
      (run_noting hfails)⟩
  | finished hprovided hwindow hsorted hpasses hsend =>
    exact ⟨_, .finished (by rw [hprovided]; rfl) hwindow hsorted.watched (hpasses.watched [])
      (run_noting hsend)⟩

/-- **Handlers run in order until one fails, and the notice goes out if none does.** Whatever the
handlers and the sender do, serving a request has one result, state and list of calls. They are
those of exactly one of four ways. If there are no handlers to be had, or else if the request has no
window, that failure is the result and nothing is called. Otherwise the handlers that are called are
those of the stable sort up to the first that fails, each once and with the same window and request.
If one fails, its failure is the result and nothing is sent. If none fails, the notice is handed
over once, and the result is that of the sender. -/
theorem serve_in_order (provided : Except Failure (List (Handler σ)))
    (send : Message → Task σ Unit) (stamp : Message.Stamp) (request : Received) (s : σ) :
    ∃ result s' calls,
      (serve provided send stamp request).run.run s = (result, s') ∧
      (serveWatched provided send stamp request).run.run ⟨s, []⟩ = (result, ⟨s', calls⟩) ∧
      ∀ result₁ s₁ calls₁, Serves provided send stamp request s result₁ s₁ calls₁ ↔
        result₁ = result ∧ s₁ = s' ∧ calls₁ = calls := by
  obtain ⟨result, s', calls, h⟩ := exists_serves provided send stamp request s
  refine ⟨result, s', calls, h.run_eq, h.watched, fun result₁ s₁ calls₁ ↦ ⟨fun h₁ ↦ ?_, ?_⟩⟩
  · obtain ⟨rfl, hw⟩ := Prod.mk.inj (h₁.watched.symm.trans h.watched)
    obtain ⟨rfl, rfl⟩ := Watched.mk.inj hw
    exact ⟨rfl, rfl, rfl⟩
  · rintro ⟨rfl, rfl, rfl⟩
    exact h

end Serve

end Recovery

end PeerRelay
