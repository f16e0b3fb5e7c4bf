import PeerRelay.Proofs.Recovery.Serving

/-!
# A registry of recovery handlers

Handlers are registered one after the other, and any of them may break off when it is asked for its
priority (`Registry.registerAll`). As long as none does, the registry holds the stable sort of what
was registered (`registerAll_of_quiet`): that is the invariant which one registration keeps
(`StablySorted.insert`), and the place that an insertion finds by halving is the right one only
because of it. The first that breaks off poisons the registry, and nothing ever mends it
(`registerAll_poisoned`).

A request that is served from the registry sorts the handlers again, which changes nothing, since a
list has one stable sort. So it is served as from a list in the order of registration
(`serve_eq_of_stablySorted`).
-/

namespace PeerRelay.Recovery

variable {σ : Type}

/-- A call that registers a handler. -/
structure Attempt (σ : Type) where
  handler : Handler σ
  /-- The handler breaks off when it is asked for its priority. -/
  interrupted : Bool

namespace Registry

/-- The fault of a registry that was poisoned. -/
def poisonedFailure : Failure :=
  .configuration .poisonedHandlers

/-- Registers handlers one after the other, with what comes of each. -/
def registerAll (registry : Registry σ) : List (Attempt σ) → List Registration × Registry σ
  | [] => ([], registry)
  | a :: rest =>
    let registered := registry.register a.handler a.interrupted
    let others := registered.2.registerAll rest
    (registered.1 :: others.1, others.2)

variable {sorted handlers : List (Handler σ)}

theorem registerAll_append (registry : Registry σ) (before after : List (Attempt σ)) :
    registry.registerAll (before ++ after) =
      ((registry.registerAll before).1 ++ ((registry.registerAll before).2.registerAll after).1,
        ((registry.registerAll before).2.registerAll after).2) := by
  induction before generalizing registry with
  | nil => rfl
  | cons a rest ih => rw [List.cons_append, registerAll, registerAll, ih, List.cons_append]

/-- A poisoned registry refuses all handlers, whatever they do when they are asked for their
priority, and stays poisoned. -/
theorem registerAll_poisoned (attempts : List (Attempt σ)) :
    registerAll .poisoned attempts =
      (attempts.map fun _ ↦ .refused poisonedFailure, .poisoned) := by
  induction attempts with
  | nil => rfl
  | cons a rest ih =>
    rw [registerAll, register, ih]
    rfl

/-- Registering more handlers, none of which breaks off, sorts them in behind those before. -/
theorem registerAll_of_quiet {attempts : List (Attempt σ)} (hsorted : StablySorted handlers sorted)
    (hquiet : ∀ a ∈ attempts, a.interrupted = false) :
    ∃ sorted', StablySorted (handlers ++ attempts.map (·.handler)) sorted' ∧
      registerAll (.intact sorted) attempts = (attempts.map fun _ ↦ .done, .intact sorted') := by
  induction attempts generalizing handlers sorted with
  | nil => exact ⟨sorted, by simpa using hsorted, rfl⟩
  | cons a rest ih =>
    obtain ⟨ha, hrest⟩ := List.forall_mem_cons.1 hquiet
    obtain ⟨sorted', hsorted', hregister⟩ := ih (hsorted.insert a.handler) hrest
    refine ⟨sorted', by simpa using hsorted', ?_⟩
    have hdone : register (.intact sorted) a.handler a.interrupted =
        (.done, .intact (insertByPriority a.handler sorted)) := by
      rw [register, if_neg (by simp [ha])]
    rw [registerAll, hdone, hregister, List.map_cons]

/-- Whoever breaks off poisons the registry. -/
theorem registerAll_of_interrupted {a : Attempt σ} (ha : a.interrupted = true)
    (after : List (Attempt σ)) : registerAll (.intact sorted) (a :: after) =
      (.interrupted :: after.map fun _ ↦ .refused poisonedFailure, .poisoned) := by
  rw [registerAll, register, ha, if_pos rfl]
  dsimp only
  rw [registerAll_poisoned]

end Registry

/-! ### Serving from a registry -/

section Serve

variable {handlers sorted : List (Handler σ)} {send : Message → Task σ Unit}
  {stamp : Message.Stamp}

theorem inOrder_eq_of_stablySorted (hsorted : StablySorted handlers sorted) :
    inOrder sorted = inOrder handlers :=
  (hsorted.trans (stablySorted_inOrder sorted)).unique (stablySorted_inOrder handlers)

/-- Serving from a list of handlers is serving from its stable sort. -/
theorem serve_eq_of_stablySorted (hsorted : StablySorted handlers sorted) :
    serve (.ok sorted) send stamp = serve (.ok handlers) send stamp := by
  funext request
  show (serve.liftExcept (Window.read request) >>= fun window ↦
    runAll window request (inOrder sorted) >>= fun _ ↦
      send (window.finished stamp request) : Task σ Unit) = _
  rw [inOrder_eq_of_stablySorted hsorted]
  rfl

/-- The calls are the same too. -/
theorem serveWatched_eq_of_stablySorted (hsorted : StablySorted handlers sorted) :
    serveWatched (.ok sorted) send stamp = serveWatched (.ok handlers) send stamp :=
  serve_eq_of_stablySorted hsorted.watched

end Serve

/-! ### From an empty registry -/

open Registry in
/-- **A registry is a stable sort that grows, until a registration breaks off and it is of no use
any more.** While no handler breaks off, every registration succeeds, the registry counts all
handlers and holds their stable sort, and a request is served from it, with the same calls, as from
the handlers in the order of registration. The first handler that breaks off is the last one to be
asked for its priority: all later ones are refused, also those that would have broken off, with the
same failure with which the registry refuses to give its handlers, and the registry counts none. -/
theorem registerAll_from_empty (attempts : List (Attempt σ)) :
    ((∀ a ∈ attempts, a.interrupted = false) →
      (registerAll .empty attempts).1 = attempts.map (fun _ ↦ .done) ∧
      (registerAll .empty attempts).2.size = attempts.length ∧
      (∃ sorted, (registerAll .empty attempts).2.handlers = .ok sorted ∧
        StablySorted (attempts.map (·.handler)) sorted) ∧
      ∀ send stamp,
        serve (registerAll .empty attempts).2.handlers send stamp =
          serve (.ok (attempts.map (·.handler))) send stamp ∧
        serveWatched (registerAll .empty attempts).2.handlers send stamp =
          serveWatched (.ok (attempts.map (·.handler))) send stamp) ∧
    ∀ before a after, attempts = before ++ a :: after → (∀ b ∈ before, b.interrupted = false) →
      a.interrupted = true →
        (registerAll .empty attempts).1 = before.map (fun _ ↦ .done) ++ .interrupted ::
          after.map (fun _ ↦ .refused poisonedFailure) ∧
        (registerAll .empty attempts).2.size = 0 ∧
        (registerAll .empty attempts).2.handlers = .error poisonedFailure := by
  constructor
  · intro hquiet
    obtain ⟨sorted, hsorted, hregister⟩ := registerAll_of_quiet StablySorted.nil hquiet
    rw [List.nil_append] at hsorted
    rw [empty, hregister]
    refine ⟨rfl, ?_, ⟨sorted, rfl, hsorted⟩, fun send stamp ↦
      ⟨serve_eq_of_stablySorted hsorted, serveWatched_eq_of_stablySorted hsorted⟩⟩
    calc sorted.length = (attempts.map (·.handler)).length := hsorted.perm.length_eq
      _ = attempts.length := List.length_map _
  · rintro before a after rfl hbefore ha
    obtain ⟨sorted, -, hregister⟩ := registerAll_of_quiet StablySorted.nil hbefore
    rw [registerAll_append, empty, hregister, registerAll_of_interrupted ha]
    exact ⟨rfl, rfl, rfl⟩

/-- An attempt to register a handler that does nothing. -/
def Attempt.idle (name : String) (priority : Int) (interrupted : Bool) : Attempt Unit :=
  ⟨⟨name, priority, fun _ _ ↦ pure ()⟩, interrupted⟩

open Registry in
/-- Three handlers of which the last comes first, and two more that would break off. -/
theorem registerAll_breaking_off :
    let three := [Attempt.idle "first" 5 false, .idle "second" 5 false, .idle "early" (-1) false]
    let late := Attempt.idle "late" 0 true
    (∃ sorted, (registerAll .empty three).2.handlers = .ok sorted ∧
      StablySorted (three.map (·.handler)) sorted ∧
      sorted.map (·.name) = ["early", "first", "second"]) ∧
    (registerAll .empty three).2.size = 3 ∧
    (registerAll .empty (three ++ [late, late])).1 =
      [.done, .done, .done, .interrupted, .refused poisonedFailure] ∧
    (registerAll .empty (three ++ [late, late])).2.handlers = .error poisonedFailure := by
  intro three late
  have hthree : ∀ a ∈ three, a.interrupted = false := by decide
  obtain ⟨-, hsize, ⟨sorted, hhandlers, hsorted⟩, -⟩ := (registerAll_from_empty three).1 hthree
  obtain ⟨hanswers, -, hrefused⟩ :=
    (registerAll_from_empty (three ++ [late, late])).2 three late [late] rfl hthree rfl
  have hread : insertByPriority three[2].handler (insertByPriority three[1].handler
      (insertByPriority three[0].handler [])) = sorted := Except.ok.inj hhandlers
  have hnames : (insertByPriority three[2].handler (insertByPriority three[1].handler
      (insertByPriority three[0].handler []))).map (·.name) = ["early", "first", "second"] := by
    decide +kernel
  exact ⟨⟨sorted, hhandlers, hsorted, hread ▸ hnames⟩, hsize, hanswers, hrefused⟩

end PeerRelay.Recovery
