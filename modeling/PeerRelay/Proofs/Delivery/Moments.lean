import PeerRelay.Proofs.Delivery.Submissions

/-!
# Moments

A trace says in which order things were seen, but not what the world was like when they were.
`exists_moment` goes back from an observation to the moment at which an action made it, with the
generation, the directory and the store as they were then. What was seen before is what that world
had seen, so that whatever is known of worlds that are reached is known of each beginning of a
trace.
-/

namespace PeerRelay.Delivery

open World

/-- What is seen without an action of the generation: a record that is loaded, a call, and a
refusal, which may come at once. -/
def Observation.isOutside : Observation → Bool
  | .called _ | .reloaded _ _ | .refused _ _ => true
  | _ => false

/-- In the world `u`, on the way to `w`, the generation `n` takes the action `a`. -/
structure Moment (may : World → Move → Prop) (initial u w : World) (n : Nat) (g : Generation)
    (a : Action) (c : Change) : Prop where
  reached : Reaches may initial u
  generation : u.generations[n]? = some g
  acts : g.Acts u a c
  goesOn : ∃ u', u.move (.act n a) = some u' ∧ u'.traceOf n = c.seen.reverse ++ u.traceOf n ∧
    Reaches may u' w

section Moment

variable {may : World → Move → Prop} {initial u v w : World} {n : Nat} {g : Generation} {a : Action}
  {c : Change}

theorem Moment.later (h : Moment may initial u v n g a c) (hr : Reaches may v w) :
    Moment may initial u w n g a c :=
  ⟨h.reached, h.generation, h.acts, h.goesOn.imp fun _ hgoes ↦
    ⟨hgoes.1, hgoes.2.1, hgoes.2.2.trans hr⟩⟩

/-- What was seen at a moment stays in the trace. -/
theorem Moment.mem_trace (h : Moment may initial u w n g a c) {o : Observation} (ho : o ∈ c.seen) :
    o ∈ w.traceOf n := by
  obtain ⟨u', -, htrace, hlater⟩ := h.goesOn
  refine mem_traceOf.2 (hlater.trace_suffix.subset (mem_traceOf.1 ?_))
  rw [htrace]
  exact List.mem_append_left _ (List.mem_reverse.2 ho)

end Moment

/-- What follows a generation shows something from outside, or is an action. -/
theorem World.Follows.isOutside_or_act {w : World} {n next : Nat} {m : Move} {g g' : Generation}
    {seen : List Observation} (h : w.Follows n m g next g' seen) :
    (∀ o ∈ seen, o.isOutside = true) ∨
      ∃ a c, m = .act n a ∧ g.Acts w a c ∧ seen = c.seen.reverse := by
  cases h with
  | act _ a c acts => exact Or.inr ⟨a, c, rfl, acts, rfl⟩
  | _ => exact Or.inl (by simp [Observation.isOutside])

/-- Whatever a trace shows, but for what comes from outside, an action made at some moment. Before
it the trace shows what the action made before, and what was seen in the world of that moment. -/
theorem exists_moment {may : World → Move → Prop} {d : Directory} {db : Store.Database} {w : World}
    {n : Nat} {after before : List Observation} {o : Observation}
    (hr : Reaches may (initial d db) w) (htrace : w.traceOf n = after ++ o :: before)
    (hinside : o.isOutside = false) :
    ∃ u g a c, Moment may (initial d db) u w n g a c ∧ ∃ earlier later,
      c.seen = earlier ++ o :: later ∧ before = earlier.reverse ++ u.traceOf n := by
  induction hr generalizing after with
  | start =>
    have hnil : after ++ o :: before = [] := htrace.symm
    simp at hnil
  | @step v w m hv hmay hmove ih =>
    have hmoves := moves_of_move hmove
    have ho : o ∈ w.traceOf n := by
      rw [htrace]
      exact List.mem_append_right _ List.mem_cons_self
    -- if the observation was made before the last move, so was its moment
    have hearlier : ∀ after', v.traceOf n = after' ++ o :: before →
        ∃ u g a c, Moment may (initial d db) u w n g a c ∧ ∃ earlier later,
          c.seen = earlier ++ o :: later ∧ before = earlier.reverse ++ u.traceOf n := by
      intro after' hbefore
      obtain ⟨u, g, a, c, hmoment, hseen⟩ := ih hbefore
      exact ⟨u, g, a, c, hmoment.later (.step m .start hmay hmove), hseen⟩
    obtain ⟨g', hg'⟩ := exists_generation (Reaches.step m hv hmay hmove) (mem_traceOf.1 ho)
    rcases hmoves.before_or_started hg' with ⟨g, hg⟩ | ⟨rfl, settings, records, rfl, -, hstart⟩
    · obtain ⟨g₁, seen, -, hseen, hfollows⟩ := hmoves.exists_follows hg
      rw [hseen] at htrace
      rcases List.append_eq_append_iff.1 htrace with ⟨rest, rfl, hbefore⟩ | ⟨rest, rfl, hrest⟩
      · exact hearlier rest hbefore
      · cases rest with
        | nil => exact hearlier [] hrest.symm
        | cons o' earlier =>
          obtain ⟨rfl, rfl⟩ := List.cons.inj hrest
          rcases hfollows.isOutside_or_act with houtside | ⟨a, c, rfl, acts, hc⟩
          · have hout := houtside o (List.mem_append_right _ List.mem_cons_self)
            simp [hinside] at hout
          · have hforward : c.seen = earlier.reverse ++ o :: after.reverse := by
              simpa using congrArg List.reverse hc.symm
            refine ⟨v, g, a, c, ⟨hv, hg, acts, w, hmove, hc ▸ hseen, .start⟩, earlier.reverse,
              after.reverse, hforward, ?_⟩
            rw [List.reverse_reverse]
            rfl
    · rw [hstart, traceOf_length_eq_nil hv, List.append_nil, List.mem_reverse] at ho
      obtain ⟨r, -, rfl⟩ := List.mem_map.1 ho
      cases hinside

/-- Whatever is in a trace, but for what comes from outside, an action made at some moment. -/
theorem exists_moment_of_mem {may : World → Move → Prop} {d : Directory} {db : Store.Database}
    {w : World} {n : Nat} {o : Observation} (hr : Reaches may (initial d db) w)
    (ho : o ∈ w.traceOf n) (hinside : o.isOutside = false) :
    ∃ u g a c, Moment may (initial d db) u w n g a c ∧ o ∈ c.seen := by
  obtain ⟨after, before, htrace⟩ := List.append_of_mem ho
  obtain ⟨u, g, a, c, hmoment, earlier, later, hseen, -⟩ := exists_moment hr htrace hinside
  exact ⟨u, g, a, c, hmoment, hseen ▸ List.mem_append_right _ List.mem_cons_self⟩

end PeerRelay.Delivery
