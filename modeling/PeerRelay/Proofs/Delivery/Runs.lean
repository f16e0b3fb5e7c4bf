import PeerRelay.Proofs.Delivery.Acts

/-!
# Runs

A move concerns one generation or none, so what a generation does can be followed by itself: the
generation, what was seen of it (`World.traceOf`), and the next ticket of the world. A property of
these three that each of the five ways to get on preserves is a `LocalInvariant`, and holds of every
generation of every world that can be reached (`LocalInvariant.of_reaches`). The other generations,
the store, the directory and the clock may be anything at each step, which is how the invariant of
one generation survives all interleavings with the rest.

`World.Moves` reads an executed move as one of the ways, and `World.Follows` says what it does to
one generation: nothing, or what the move is about.
-/

namespace PeerRelay.Delivery

namespace World

/-! ### Moves -/

/-- What is seen of a generation that starts with records to reload. -/
def reloadSeen (records : List (Nat × Store.Record)) : List Observation :=
  records.map fun r ↦ .reloaded r.1 r.2

/-- What a move does, one case for each way in which it can go. -/
inductive Moves (w : World) : Move → World → Prop
  | start (settings : Settings) (call : StoreCall) (records : List Store.Record)
      (db : Store.Database) (loaded : w.load call = (records, db)) :
      Moves w (.start settings call)
        { w with
          db := db
          nextTicket := w.nextTicket + records.length
          generations := w.generations ++ [newGeneration settings (numbered w.nextTicket records)]
          trace := ((reloadSeen (numbered w.nextTicket records)).map
            (w.generations.length, ·)).reverse ++ w.trace }
  | refuse (n : Nat) (g : Generation) (m : Message) (targets : List Instance)
      (at_n : w.generations[n]? = some g) (closed : g.closed = true) (inUse : g.dropped = false) :
      Moves w (.submit n m targets)
        { w with
          nextTicket := w.nextTicket + 1
          trace := (n, .refused w.nextTicket (.shutDown m.id)) ::
            (n, .called ⟨w.nextTicket, m, targets⟩) :: w.trace }
  | call (n : Nat) (g : Generation) (m : Message) (targets : List Instance)
      (at_n : w.generations[n]? = some g) (isOpen : g.closed = false) (inUse : g.dropped = false) :
      Moves w (.submit n m targets)
        { w with
          nextTicket := w.nextTicket + 1
          generations := w.generations.set n
            { g with arriving := g.arriving ++ [⟨w.nextTicket, m, targets⟩] }
          trace := (n, .called ⟨w.nextTicket, m, targets⟩) :: w.trace }
  | act (n : Nat) (g : Generation) (a : Action) (c : Change) (at_n : w.generations[n]? = some g)
      (acts : g.Acts w a c) :
      Moves w (.act n a)
        { w with
          db := c.db
          generations := w.generations.set n c.generation
          trace := (c.seen.map (n, ·)).reverse ++ w.trace }
  | tick (millis : Nat) : Moves w (.tick millis) { w with clock := w.clock + millis }
  | register (i : Instance) : Moves w (.register i) { w with directory := w.directory.add i }
  | unregister (uri : String) :
      Moves w (.unregister uri) { w with directory := w.directory.remove uri }

@[simp] theorem length_numbered (first : Nat) (records : List Store.Record) :
    (numbered first records).length = records.length := by
  simp [numbered]

theorem exists_numbered {records : List Store.Record} {record : Store.Record}
    (h : record ∈ records) (first : Nat) : ∃ k, (k, record) ∈ numbered first records := by
  obtain ⟨i, hi⟩ := List.mem_iff_getElem?.1 h
  exact ⟨first + i, List.mem_map.2
    ⟨(record, first + i), List.mk_add_mem_zipIdx_iff_getElem?.2 hi, rfl⟩⟩

variable {w w' : World}

theorem moves_of_submit {n : Nat} {m : Message} {targets : List Instance}
    (h : w.submit n m targets = some w') : w.Moves (.submit n m targets) w' := by
  rw [submit] at h
  split at h
  · contradiction
  · rename_i g hg
    split at h
    · contradiction
    · rename_i hdropped
      rw [Bool.not_eq_true] at hdropped
      dsimp only at h
      split at h
      · rename_i hclosed
        cases h
        exact .refuse n g m targets hg hclosed hdropped
      · rename_i hopen
        cases h
        exact .call n g m targets hg (by simpa using hopen) hdropped

/-- A submission is a call, whether it is refused or not. -/
theorem called_of_submit {n : Nat} {m : Message} {targets : List Instance}
    (h : w.submit n m targets = some w') : (n, .called ⟨w.nextTicket, m, targets⟩) ∈ w'.trace := by
  cases moves_of_submit h with
  | refuse => simp
  | call => simp

theorem moves_of_act {n : Nat} {a : Action} (h : w.act n a = some w') : w.Moves (.act n a) w' := by
  rw [act] at h
  split at h
  · contradiction
  · rename_i g hg
    obtain ⟨c, hc, rfl⟩ := Option.map_eq_some_iff.1 h
    exact .act n g a c hg (Generation.acts_of_act hc)

/-- An executed move is one of the cases. -/
theorem moves_of_move {m : Move} (h : w.move m = some w') : w.Moves m w' := by
  cases m with
  | start settings call =>
    cases h
    have hmoves := Moves.start settings call (w.load call).1 (w.load call).2 rfl
    rw [reloadSeen, List.map_map] at hmoves
    simpa only [start, length_numbered, Function.comp_def] using hmoves
  | submit n m targets => exact moves_of_submit h
  | act n a => exact moves_of_act h
  | tick millis =>
    cases h
    exact .tick millis
  | register i =>
    cases h
    exact .register i
  | unregister uri =>
    cases h
    exact .unregister uri

/-! ### The part of a generation in a trace -/

/-- What a trace says of one generation. -/
def seenOf (n : Nat) (trace : List (Nat × Observation)) : List Observation :=
  (trace.filter (·.1 = n)).map (·.2)

/-- What was seen of one generation, latest first. -/
def traceOf (w : World) (n : Nat) : List Observation :=
  seenOf n w.trace

section SeenOf

variable {n k : Nat} {o : Observation} {trace later : List (Nat × Observation)}

theorem mem_seenOf : o ∈ seenOf n trace ↔ (n, o) ∈ trace := by
  simp [seenOf]

@[simp] theorem seenOf_append : seenOf n (later ++ trace) = seenOf n later ++ seenOf n trace := by
  simp [seenOf]

@[simp] theorem seenOf_cons_self : seenOf n ((n, o) :: trace) = o :: seenOf n trace := by
  simp [seenOf]

theorem seenOf_cons_of_ne (h : k ≠ n) : seenOf n ((k, o) :: trace) = seenOf n trace := by
  simp [seenOf, h]

@[simp] theorem seenOf_map_self (seen : List Observation) :
    seenOf n (seen.map (n, ·)).reverse = seen.reverse := by
  simp [seenOf, List.filter_map, Function.comp_def]

theorem seenOf_map_of_ne (h : k ≠ n) (seen : List Observation) :
    seenOf n (seen.map (k, ·)).reverse = [] := by
  simp [seenOf, List.filter_map, Function.comp_def, h]

/-- What is seen of one generation only is counted in its part of the trace. -/
theorem count_seenOf {α : Type} [BEq α] [LawfulBEq α] {f : Observation → Option α} {a : α}
    (h : ∀ entry ∈ trace, f entry.2 = some a → entry.1 = n) :
    (trace.filterMap (f ·.2)).count a = ((seenOf n trace).filterMap f).count a := by
  induction trace with
  | nil => rfl
  | cons entry trace ih =>
    obtain ⟨k, o⟩ := entry
    have ih := ih fun entry hentry ↦ h entry (List.mem_cons_of_mem _ hentry)
    by_cases hk : k = n
    · subst hk
      rw [seenOf_cons_self, List.filterMap_cons, List.filterMap_cons]
      dsimp only
      cases f o <;> simp [List.count_cons, ih]
    · have hne : f o ≠ some a := fun heq ↦ hk (h (k, o) List.mem_cons_self heq)
      rw [seenOf_cons_of_ne hk, List.filterMap_cons]
      dsimp only
      cases hf : f o with
      | none => exact ih
      | some b =>
        have hb : b ≠ a := fun heq ↦ hne (hf.trans (congrArg some heq))
        rw [List.count_cons_of_ne hb, ih]

end SeenOf

section Counts

variable {α : Type} [BEq α] (seen tr : List Observation)

/-- What is seen next adds to what was seen. -/
theorem count_filterMap_seen (f : Observation → Option α) (a : α) :
    ((seen.reverse ++ tr).filterMap f).count a =
      (seen.filterMap f).count a + (tr.filterMap f).count a := by
  rw [List.filterMap_append, List.filterMap_reverse, List.count_append, List.count_reverse]

theorem count_map_seen {β : Type} (f : Observation → Option β) (key : β → α) (a : α) :
    (((seen.reverse ++ tr).filterMap f).map key).count a =
      ((seen.filterMap f).map key).count a + ((tr.filterMap f).map key).count a := by
  rw [List.filterMap_append, List.filterMap_reverse, List.map_append, List.map_reverse,
    List.count_append, List.count_reverse]

theorem count_flatMap_seen (f : Observation → List α) (a : α) :
    ((seen.reverse ++ tr).flatMap f).count a =
      (seen.flatMap f).count a + (tr.flatMap f).count a := by
  rw [List.flatMap_append, List.count_append,
    List.Perm.count_eq ((List.reverse_perm seen).flatMap_right f)]

end Counts

theorem mem_traceOf {n : Nat} {o : Observation} : o ∈ w.traceOf n ↔ (n, o) ∈ w.trace :=
  mem_seenOf

/-! ### One generation through a move -/

/-- What a move does to the generation `n` and to the next ticket, and what is seen of it. -/
inductive Follows (w : World) (n : Nat) : Move → Generation → Nat → Generation →
    List Observation → Prop
  | idle (m : Move) (g : Generation) (next : Nat) (later : w.nextTicket ≤ next) :
      Follows w n m g next g []
  | refuse (g : Generation) (m : Message) (targets : List Instance) (closed : g.closed = true)
      (inUse : g.dropped = false) :
      Follows w n (.submit n m targets) g (w.nextTicket + 1) g
        [.refused w.nextTicket (.shutDown m.id), .called ⟨w.nextTicket, m, targets⟩]
  | call (g : Generation) (m : Message) (targets : List Instance) (isOpen : g.closed = false)
      (inUse : g.dropped = false) :
      Follows w n (.submit n m targets) g (w.nextTicket + 1)
        { g with arriving := g.arriving ++ [⟨w.nextTicket, m, targets⟩] }
        [.called ⟨w.nextTicket, m, targets⟩]
  | act (g : Generation) (a : Action) (c : Change) (acts : g.Acts w a c) :
      Follows w n (.act n a) g w.nextTicket c.generation c.seen.reverse

section Follows

variable {m : Move} {n k : Nat} {g g' : Generation} {gs : List Generation}

/-- After a generation was replaced the others are where they were. -/
theorem cases_of_set (h : (gs.set n g)[k]? = some g') :
    (n = k ∧ g' = g) ∨ (n ≠ k ∧ gs[k]? = some g') := by
  by_cases hk : n = k
  · subst hk
    have hlt := (List.getElem?_eq_some_iff.1 h).1
    rw [List.length_set] at hlt
    exact Or.inl ⟨rfl, Option.some.inj (h.symm.trans (List.getElem?_set_self hlt))⟩
  · exact Or.inr ⟨hk, (List.getElem?_set_ne hk).symm.trans h⟩

theorem cases_of_concat (h : (gs ++ [g])[k]? = some g') :
    (k = gs.length ∧ g' = g) ∨ gs[k]? = some g' := by
  by_cases hk : k < gs.length
  · exact Or.inr ((List.getElem?_append_left hk).symm.trans h)
  · have hlt := (List.getElem?_eq_some_iff.1 h).1
    rw [List.length_append, List.length_singleton] at hlt
    obtain rfl : k = gs.length := by omega
    exact Or.inl ⟨rfl, Option.some.inj (h.symm.trans List.getElem?_concat_length)⟩

/-- Each generation follows each move. -/
theorem Moves.exists_follows (h : w.Moves m w') (hg : w.generations[n]? = some g) :
    ∃ g' seen, w'.generations[n]? = some g' ∧ w'.traceOf n = seen ++ w.traceOf n ∧
      w.Follows n m g w'.nextTicket g' seen := by
  have hlt := (List.getElem?_eq_some_iff.1 hg).1
  cases h with
  | start settings call records db loaded =>
    refine ⟨g, [], (List.getElem?_append_left hlt).trans hg, ?_, .idle _ g _ (Nat.le_add_right _ _)⟩
    rw [traceOf, seenOf_append, seenOf_map_of_ne (Nat.ne_of_gt hlt), ← traceOf]
  | refuse k g₁ m targets at_k closed inUse =>
    by_cases hk : k = n
    · subst hk
      obtain rfl : g = g₁ := Option.some.inj (hg.symm.trans at_k)
      refine ⟨g, _, hg, ?_, .refuse g m targets closed inUse⟩
      rw [traceOf, seenOf_cons_self, seenOf_cons_self, ← traceOf]
      rfl
    · refine ⟨g, [], hg, ?_, .idle _ g _ (Nat.le_succ _)⟩
      rw [traceOf, seenOf_cons_of_ne hk, seenOf_cons_of_ne hk, ← traceOf, List.nil_append]
  | call k g₁ m targets at_k isOpen inUse =>
    by_cases hk : k = n
    · subst hk
      obtain rfl : g = g₁ := Option.some.inj (hg.symm.trans at_k)
      refine ⟨_, _, List.getElem?_set_self hlt, ?_, .call g m targets isOpen inUse⟩
      rw [traceOf, seenOf_cons_self, ← traceOf]
      rfl
    · refine ⟨g, [], (List.getElem?_set_ne hk).trans hg, ?_, .idle _ g _ (Nat.le_succ _)⟩
      rw [traceOf, seenOf_cons_of_ne hk, ← traceOf, List.nil_append]
  | act k g₁ a c at_k acts =>
    by_cases hk : k = n
    · subst hk
      obtain rfl : g = g₁ := Option.some.inj (hg.symm.trans at_k)
      refine ⟨_, _, List.getElem?_set_self hlt, ?_, .act g a c acts⟩
      rw [traceOf, seenOf_append, seenOf_map_self, ← traceOf]
    · refine ⟨g, [], (List.getElem?_set_ne hk).trans hg, ?_, .idle _ g _ (Nat.le_refl _)⟩
      rw [traceOf, seenOf_append, seenOf_map_of_ne hk, ← traceOf]
  | tick millis => exact ⟨g, [], hg, rfl, .idle _ g _ (Nat.le_refl _)⟩
  | register i => exact ⟨g, [], hg, rfl, .idle _ g _ (Nat.le_refl _)⟩
  | unregister uri => exact ⟨g, [], hg, rfl, .idle _ g _ (Nat.le_refl _)⟩

/-- A generation was there before a move, or the move starts it. -/
theorem Moves.before_or_started (h : w.Moves m w') (hg : w'.generations[n]? = some g') :
    (∃ g, w.generations[n]? = some g) ∨
    n = w.generations.length ∧ ∃ settings records,
      g' = newGeneration settings (numbered w.nextTicket records) ∧
      w'.nextTicket = w.nextTicket + records.length ∧
      w'.traceOf n = (reloadSeen (numbered w.nextTicket records)).reverse ++ w.traceOf n := by
  cases h with
  | start settings call records db loaded =>
    rcases cases_of_concat hg with ⟨rfl, rfl⟩ | hbefore
    · refine Or.inr ⟨rfl, settings, records, rfl, rfl, ?_⟩
      rw [traceOf, seenOf_append, seenOf_map_self, ← traceOf]
    · exact Or.inl ⟨g', hbefore⟩
  | call k g₁ m targets at_k isOpen inUse =>
    rcases cases_of_set hg with ⟨rfl, -⟩ | ⟨-, hbefore⟩
    · exact Or.inl ⟨g₁, at_k⟩
    · exact Or.inl ⟨g', hbefore⟩
  | act k g₁ a c at_k acts =>
    rcases cases_of_set hg with ⟨rfl, -⟩ | ⟨-, hbefore⟩
    · exact Or.inl ⟨g₁, at_k⟩
    · exact Or.inl ⟨g', hbefore⟩
  | _ => exact Or.inl ⟨g', hg⟩

end Follows

/-! ### Reaching -/

/-- A property of a world and what was seen in it is kept by every move that is allowed. -/
theorem Reaches.induct {allowed : World → Move → Prop} {initial : World} {P : World → Prop}
    (hr : Reaches allowed initial w) (h0 : P initial)
    (hstep : ∀ {v v' : World} {m : Move}, Reaches allowed initial v → allowed v m → v.Moves m v' →
      P v → P v') : P w := by
  induction hr with
  | start => exact h0
  | step m hv hallowed hmove ih => exact hstep hv hallowed (moves_of_move hmove) ih

/-- What is reached from a world that is reached is reached. -/
theorem Reaches.trans {allowed : World → Move → Prop} {initial : World}
    (hr : Reaches allowed initial w) (hr' : Reaches allowed w w') :
    Reaches allowed initial w' := by
  induction hr' with
  | start => exact hr
  | step m _ hallowed hmove ih => exact .step m ih hallowed hmove

/-- What is reached by moves that are allowed is reached where more of them are. -/
theorem Reaches.mono {allowed more : World → Move → Prop} {initial : World}
    (hr : Reaches allowed initial w) (h : ∀ v m, allowed v m → more v m) :
    Reaches more initial w := by
  induction hr with
  | start => exact .start
  | step m _ hallowed hmove ih => exact .step m ih (h _ m hallowed) hmove

theorem Moves.trace_suffix {m : Move} (h : w.Moves m w') : w.trace <:+ w'.trace := by
  cases h with
  | start settings call records db loaded => exact List.suffix_append _ _
  | refuse n g m targets at_n closed inUse =>
    exact (List.suffix_cons _ _).trans (List.suffix_cons _ _)
  | call n g m targets at_n isOpen inUse => exact List.suffix_cons _ _
  | act n g a c at_n acts => exact List.suffix_append _ _
  | _ => exact List.suffix_rfl

/-- What was seen once stays in the trace. -/
theorem Reaches.trace_suffix {allowed : World → Move → Prop} (hr : Reaches allowed w w') :
    w.trace <:+ w'.trace :=
  Reaches.induct (P := fun w' ↦ w.trace <:+ w'.trace) hr List.suffix_rfl
    fun _ _ hmove ih ↦ ih.trans hmove.trace_suffix

/-- The world after some moves, if each of them is allowed and possible. -/
def run (allowed : World → Move → Prop) [∀ w m, Decidable (allowed w m)] (w : World) :
    List Move → Option World
  | [] => some w
  | m :: rest => if allowed w m then (w.move m).bind (run allowed · rest) else none

/-- Moves that can be made reach the world that they lead to. -/
theorem reaches_of_run {allowed : World → Move → Prop} [∀ w m, Decidable (allowed w m)]
    {initial : World} {moves : List Move} (hr : Reaches allowed initial w)
    (h : w.run allowed moves = some w') : Reaches allowed initial w' := by
  induction moves generalizing w with
  | nil =>
    cases h
    exact hr
  | cons m rest ih =>
    rw [run] at h
    split at h
    · rename_i hallowed
      obtain ⟨v, hmove, hrest⟩ := Option.bind_eq_some_iff.1 h
      exact ih (.step m hr hallowed hmove) hrest
    · contradiction

/-- A generation that passes a test is reached if a run leads to it. -/
theorem exists_of_run {allowed : World → Move → Prop} [∀ w m, Decidable (allowed w m)]
    {initial : World} {moves : List Move} {n : Nat} {test : World → Generation → Bool}
    (h : (initial.run allowed moves).any (fun w ↦ w.generations[n]?.any (test w)) = true) :
    ∃ w g, Reaches allowed initial w ∧ w.generations[n]? = some g ∧ test w g = true := by
  obtain ⟨w, hrun, hw⟩ := (Option.any_eq_true _ _).1 h
  obtain ⟨g, hg, htest⟩ := (Option.any_eq_true _ _).1 hw
  exact ⟨w, g, reaches_of_run .start hrun, hg, htest⟩

/-- Only generations that were started are seen. -/
theorem lt_length_of_mem_trace {allowed : World → Move → Prop} {d : Directory}
    {db : Store.Database} (hr : Reaches allowed (initial d db) w) :
    ∀ entry ∈ w.trace, entry.1 < w.generations.length := by
  refine Reaches.induct (P := fun w ↦ ∀ entry ∈ w.trace, entry.1 < w.generations.length) hr
    (by simp [initial]) fun _ _ hmove ih ↦ ?_
  cases hmove with
  | start settings call records db loaded =>
    intro entry hentry
    simp only [List.mem_append, List.mem_reverse, List.mem_map] at hentry
    simp only [List.length_append, List.length_singleton]
    rcases hentry with ⟨o, -, rfl⟩ | hentry
    · exact Nat.lt_succ_self _
    · exact Nat.lt_succ_of_lt (ih entry hentry)
  | refuse n g m targets at_n closed inUse =>
    have hn := (List.getElem?_eq_some_iff.1 at_n).1
    intro entry hentry
    simp only [List.mem_cons] at hentry
    rcases hentry with rfl | rfl | hentry
    · exact hn
    · exact hn
    · exact ih entry hentry
  | call n g m targets at_n isOpen inUse =>
    have hn := (List.getElem?_eq_some_iff.1 at_n).1
    intro entry hentry
    simp only [List.mem_cons] at hentry
    rw [List.length_set]
    rcases hentry with rfl | hentry
    · exact hn
    · exact ih entry hentry
  | act n g a c at_n acts =>
    have hn := (List.getElem?_eq_some_iff.1 at_n).1
    intro entry hentry
    simp only [List.mem_append, List.mem_reverse, List.mem_map] at hentry
    rw [List.length_set]
    rcases hentry with ⟨o, -, rfl⟩ | hentry
    · exact hn
    · exact ih entry hentry
  | tick millis => exact ih
  | register i => exact ih
  | unregister uri => exact ih

theorem traceOf_length_eq_nil {allowed : World → Move → Prop} {d : Directory}
    {db : Store.Database} (hr : Reaches allowed (initial d db) w) :
    w.traceOf w.generations.length = [] := by
  refine List.eq_nil_iff_forall_not_mem.2 fun o ho ↦ ?_
  exact Nat.lt_irrefl _ (lt_length_of_mem_trace hr _ (mem_traceOf.1 ho))

end World

/-! ### Invariants of one generation -/

/-- A property of the next ticket, a generation and what was seen of it that is preserved by
whatever happens to the generation, given what is known of the three beforehand. Of its actions only
those that are allowed are considered. -/
structure LocalInvariant (allowed : Action → Prop)
    (known holds : Nat → Generation → List Observation → Prop) : Prop where
  start : ∀ (first : Nat) (settings : Settings) (records : List Store.Record),
    holds (first + records.length)
      (World.newGeneration settings (World.numbered first records))
      (World.reloadSeen (World.numbered first records)).reverse
  later : ∀ {next next' : Nat} {g : Generation} {tr : List Observation}, next ≤ next' →
    holds next g tr → holds next' g tr
  refuse : ∀ {next : Nat} {g : Generation} {tr : List Observation} (m : Message)
    (targets : List Instance), g.closed = true → known next g tr → holds next g tr →
    holds (next + 1) g (.refused next (.shutDown m.id) :: .called ⟨next, m, targets⟩ :: tr)
  call : ∀ {next : Nat} {g : Generation} {tr : List Observation} (m : Message)
    (targets : List Instance), g.closed = false → g.dropped = false → known next g tr →
    holds next g tr →
    holds (next + 1) { g with arriving := g.arriving ++ [⟨next, m, targets⟩] }
      (.called ⟨next, m, targets⟩ :: tr)
  act : ∀ {w : World} {g : Generation} {tr : List Observation} {a : Action} {c : Change},
    allowed a → g.Acts w a c → known w.nextTicket g tr → holds w.nextTicket g tr →
    holds w.nextTicket c.generation (c.seen.reverse ++ tr)

namespace LocalInvariant

open World

variable {may : World → Move → Prop} {allowed : Action → Prop}
  {known holds : Nat → Generation → List Observation → Prop} {d : Directory} {db : Store.Database}
  {w : World}

/-- What follows a move keeps the invariant. -/
theorem of_follows (h : LocalInvariant allowed known holds) {n next : Nat} {m : Move}
    {g g' : Generation} {tr seen : List Observation} (hfollows : w.Follows n m g next g' seen)
    (hallowed : ∀ a, m = .act n a → allowed a) (hknown : known w.nextTicket g tr)
    (hholds : holds w.nextTicket g tr) : holds next g' (seen ++ tr) := by
  cases hfollows with
  | idle _ _ _ later => exact h.later later hholds
  | refuse _ m targets closed inUse => exact h.refuse m targets closed hknown hholds
  | call _ m targets isOpen inUse => exact h.call m targets isOpen inUse hknown hholds
  | act _ a c acts => exact h.act (hallowed a rfl) acts hknown hholds

/-- An invariant of one generation holds of every generation of every world that is reached, if
what it builds on does. -/
theorem of_reaches (h : LocalInvariant allowed known holds)
    (hallowed : ∀ {v : World} {n : Nat} {a : Action}, may v (.act n a) → allowed a)
    (hknown : ∀ {v : World}, Reaches may (initial d db) v → ∀ {n : Nat} {g : Generation},
      v.generations[n]? = some g → known v.nextTicket g (v.traceOf n))
    (hr : Reaches may (initial d db) w) :
    ∀ {n : Nat} {g : Generation}, w.generations[n]? = some g →
      holds w.nextTicket g (w.traceOf n) := by
  induction hr with
  | start =>
    intro n g hg
    simp [initial] at hg
  | @step v w m hv hmay hmove ih =>
    intro n g' hg'
    have hmoves := moves_of_move hmove
    rcases hmoves.before_or_started hg' with ⟨g, hg⟩ | ⟨rfl, settings, records, rfl, hnext, htrace⟩
    · obtain ⟨g₁, seen, hg₁, htrace, hfollows⟩ := hmoves.exists_follows hg
      obtain rfl : g₁ = g' := Option.some.inj (hg₁.symm.trans hg')
      rw [htrace]
      exact h.of_follows hfollows (fun a ha ↦ hallowed (ha ▸ hmay)) (hknown hv hg) (ih hg)
    · rw [htrace, hnext, traceOf_length_eq_nil hv, List.append_nil]
      exact h.start v.nextTicket settings records

end LocalInvariant

end PeerRelay.Delivery
