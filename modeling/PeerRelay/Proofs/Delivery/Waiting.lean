import PeerRelay.Proofs.Delivery.Runs

/-!
# Who waits for room

Three kinds of participants wait for room in the outbox: the storing worker, the reload, and retries
that found it full. The storing worker and the reload wait with one parcel each, exactly while they
say so, and the storing worker takes up nothing before everything is reloaded (`Queuing`); so that
when it waits, nobody but retries waits beside it.
-/

namespace PeerRelay.Delivery

open World

/-- Whether the storing worker is in the middle of something. -/
def Storing.isBusy : Storing → Bool
  | .holding _ | .written _ _ | .waiting | .stopping => true
  | _ => false

namespace Generation

/-- How many parcels a participant waits with. -/
def waitsWith (g : Generation) (who : Waiter) : Nat :=
  g.waiting.countP (·.1 = who)

/-- The storing worker and the reload wait in line exactly if they say so, and the storing worker is
idle until everything is reloaded. The outbox has room for somebody. -/
structure Queuing (g : Generation) : Prop where
  capacity : 0 < g.outbox.capacity
  storing : g.waitsWith .storing = if g.storing = .waiting then 1 else 0
  reload : g.waitsWith .reload = if g.reload.waiting = true then 1 else 0
  reloaded : g.storing.isBusy = true → g.isReloaded = true

section Offer

variable (g : Generation) (who : Waiter) (p : Parcel)

/-- Who offers a parcel joins the line if it has to wait. -/
theorem offer_waiting :
    (g.offer who p).waiting = if g.mustWait then g.waiting ++ [(who, p)] else g.waiting := by
  rw [mustWait]
  rcases g.offer_cases who p with ⟨hclosed, h⟩ | ⟨hopen, henter, h⟩ | ⟨hopen, henter, h⟩
  · simp [h, hclosed]
  · simp [h, henter]
  · simp [h, hopen, henter]

@[simp] theorem offer_capacity : (g.offer who p).outbox.capacity = g.outbox.capacity := by
  rcases g.offer_cases who p with ⟨-, h⟩ | ⟨-, -, h⟩ | ⟨-, -, h⟩ <;> rw [h]
  rfl

@[simp] theorem offer_isReloaded : (g.offer who p).isReloaded = g.isReloaded := by
  rw [isReloaded, offer_reload, ← isReloaded]

theorem waitsWith_offer_self :
    (g.offer who p).waitsWith who = g.waitsWith who + if g.mustWait then 1 else 0 := by
  rw [waitsWith, offer_waiting, waitsWith]
  split
  · rw [List.countP_append, List.countP_singleton, if_pos (by simp)]
  · rfl

theorem waitsWith_offer_of_ne {who' : Waiter} (hne : who ≠ who') :
    (g.offer who p).waitsWith who' = g.waitsWith who' := by
  rw [waitsWith, offer_waiting, waitsWith]
  split
  · rw [List.countP_append, List.countP_singleton, if_neg (by simpa using hne), Nat.add_zero]
  · rfl

theorem waitsWith_reinject (clock : Nat) (hne : .retry ≠ who) :
    (g.reinject clock p).waitsWith who = g.waitsWith who := by
  rcases g.reinject_cases clock p with ⟨due, h⟩ | h <;> rw [h]
  · rfl
  · exact g.waitsWith_offer_of_ne .retry p hne

@[simp] theorem reinject_capacity (clock : Nat) :
    (g.reinject clock p).outbox.capacity = g.outbox.capacity := by
  rcases g.reinject_cases clock p with ⟨due, h⟩ | h <;> rw [h]
  exact g.offer_capacity .retry p

end Offer

section Queuing

variable {g g' : Generation}

/-- An outbox without room has entries. -/
theorem Queuing.entries_ne_nil (h : Queuing g) (full : g.outbox.hasRoom = false) :
    g.outbox.entries ≠ [] := by
  intro hempty
  simp [Queue.hasRoom, hempty, Nat.pos_iff_ne_zero.1 h.capacity] at full

/-- Without a line nobody waits. -/
theorem waitsWith_of_nil (line : g.waiting = []) (who : Waiter) : g.waitsWith who = 0 := by
  rw [waitsWith, line, List.countP_nil]

/-- The same participants wait, and the storing worker takes up nothing. -/
theorem Queuing.congr (h : Queuing g) (capacity : g'.outbox.capacity = g.outbox.capacity)
    (line : ∀ who, who ≠ .retry → g'.waitsWith who = g.waitsWith who)
    (storing : g'.storing = .waiting ↔ g.storing = .waiting) (reload : g'.reload = g.reload)
    (busy : g'.storing.isBusy = true → g.storing.isBusy = true) : Queuing g' where
  capacity := capacity ▸ h.capacity
  storing := by
    rw [line .storing nofun, h.storing]
    simp only [storing]
  reload := by rw [line .reload nofun, h.reload, reload]
  reloaded hbusy := by
    rw [isReloaded, reload]
    exact h.reloaded (busy hbusy)

/-- The first in line goes on as it leaves the line. -/
theorem Queuing.release {who : Waiter} {p : Parcel} {rest : List (Waiter × Parcel)}
    {outbox : Queue Parcel} (h : Queuing g) (first : g.waiting = (who, p) :: rest)
    (capacity : outbox.capacity = g.outbox.capacity) :
    Queuing ({ g with waiting := rest, outbox := outbox }.release who) := by
  have hself : g.waitsWith who = rest.countP (·.1 = who) + 1 := by
    rw [waitsWith, first, List.countP_cons_of_pos (by simp)]
  have hothers : ∀ who', who ≠ who' → g.waitsWith who' = rest.countP (·.1 = who') := by
    intro who' hne
    rw [waitsWith, first, List.countP_cons_of_neg (by simpa using hne)]
  have hstoring := h.storing
  have hreload := h.reload
  refine ⟨by simpa [capacity] using h.capacity, ?_, ?_, ?_⟩
  · cases who with
    | storing =>
      rw [hself] at hstoring
      have hwaits : g.storing = .waiting := by
        by_contra hnot
        simp [hnot] at hstoring
      rw [if_pos hwaits] at hstoring
      simpa [waitsWith, Generation.release, hwaits] using hstoring
    | reload => exact (hothers .storing (by decide)).symm.trans hstoring
    | retry => exact (hothers .storing (by decide)).symm.trans hstoring
  · cases who with
    | storing => exact (hothers .reload (by decide)).symm.trans hreload
    | reload =>
      rw [hself] at hreload
      have hwaits : g.reload.waiting = true := by
        by_contra hnot
        simp [hnot] at hreload
      rw [if_pos hwaits] at hreload
      simpa [waitsWith, Generation.release] using hreload
    | retry => exact (hothers .reload (by decide)).symm.trans hreload
  · cases who with
    | storing =>
      intro hbusy
      simp only [Generation.release] at hbusy ⊢
      split at hbusy
      · cases hbusy
      · exact h.reloaded hbusy
    | reload =>
      -- a storing worker that is busy did not begin before everything was reloaded
      intro hbusy
      have hdone := h.reloaded hbusy
      have hwaits : g.reload.waiting = true := by
        by_contra hnot
        rw [hself] at hreload
        simp [hnot] at hreload
      simp [isReloaded, hwaits] at hdone
    | retry => exact h.reloaded

end Queuing

variable {w : World} {g : Generation} {a : Action} {c : Change}

theorem Acts.queuing (h : g.Acts w a c) (hg : Queuing g) : Queuing c.generation := by
  cases h with
  | receiveCall s rest ready reloaded front =>
    have hnone : g.waitsWith .storing = 0 := by simpa [ready] using hg.storing
    exact ⟨hg.capacity, hnone, hg.reload, fun _ ↦ reloaded⟩
  | receiveStop rest ready reloaded front =>
    have hnone : g.waitsWith .storing = 0 := by simpa [ready] using hg.storing
    exact ⟨hg.capacity, hnone, hg.reload, fun _ ↦ reloaded⟩
  | forward s targets written p parcel storing waits =>
    refine ⟨by simpa using hg.capacity, ?_, ?_, fun _ ↦ ?_⟩
    · have hnone : g.waitsWith .storing = 0 := by simpa [written] using hg.storing
      have hoffer := g.waitsWith_offer_self .storing p
      rw [hnone, Nat.zero_add] at hoffer
      refine hoffer.trans ?_
      rw [waits]
      cases g.mustWait <;> rfl
    · have hoffer := g.waitsWith_offer_of_ne .storing p (show Waiter.storing ≠ .reload from nofun)
      refine hoffer.trans ?_
      rw [hg.reload, offer_reload]
    · have hreloaded := hg.reloaded (by rw [written]; rfl)
      rwa [← g.offer_isReloaded .storing p] at hreloaded
  | reload ticket record rest next p parcel =>
    refine ⟨by simpa using hg.capacity, ?_, ?_, fun hbusy ↦ ?_⟩
    · have hoffer := g.waitsWith_offer_of_ne .reload p (show Waiter.reload ≠ .storing from nofun)
      refine hoffer.trans ?_
      rw [hg.storing, offer_storing]
    · have hnone : g.waitsWith .reload = 0 := by simpa [next] using hg.reload
      have hoffer := g.waitsWith_offer_self .reload p
      rw [hnone, Nat.zero_add] at hoffer
      exact hoffer
    · rw [offer_storing] at hbusy
      have hreloaded := hg.reloaded hbusy
      simp [isReloaded, next] at hreloaded
  | enter who p rest first isOpen => exact hg.release first rfl
  | enterClosed who p rest first isClosed => exact hg.release first rfl
  | cancel condemned waits =>
    refine ⟨hg.capacity, ?_, ?_, nofun⟩
    · simp [waitsWith, List.countP_filter]
    · refine Eq.trans ?_ hg.reload
      rw [waitsWith, waitsWith, List.countP_filter]
      refine List.countP_congr fun entry _ ↦ ?_
      simp +contextual
  | putBack p ahead target retrying =>
    exact hg.congr (by simp) (fun who hne ↦ waitsWith_reinject _ _ _ _ hne.symm) (by simp) (by simp)
      (by simp)
  | wake position due p sleeps isDue =>
    exact hg.congr (by simp) (fun who hne ↦ waitsWith_offer_of_ne _ _ _ hne.symm) (by simp)
      (by simp) (by simp)
  | _ =>
    refine hg.congr rfl (fun _ _ ↦ rfl) ?_ rfl ?_
    · simp_all [abortSending]
    · simp_all [abortSending, Storing.isBusy]

end Generation

/-! ### Over a run -/

theorem queuing_invariant :
    LocalInvariant (fun _ ↦ True) (fun _ _ _ ↦ True) (fun _ g _ ↦ g.Queuing) where
  start _ _ _ := ⟨Nat.lt_of_lt_of_le Nat.zero_lt_one (Nat.le_max_left 1 _), rfl, rfl, nofun⟩
  later _ h := h
  refuse _ _ _ _ ih := ih
  call _ _ _ _ _ ih := ⟨ih.capacity, ih.storing, ih.reload, ih.reloaded⟩
  act _ hacts _ ih := hacts.queuing ih

theorem queuing {may : World → Move → Prop} {d : Directory} {db : Store.Database} {w : World}
    {n : Nat} {g : Generation} (hr : Reaches may (initial d db) w)
    (hg : w.generations[n]? = some g) : g.Queuing :=
  queuing_invariant.of_reaches (fun _ ↦ trivial) (fun _ _ _ _ ↦ trivial) hr hg

end PeerRelay.Delivery
