import Mathlib.Data.List.Infix
import Mathlib.Data.List.Perm.Subperm
import PeerRelay.Proofs.Delivery.Conservation
import PeerRelay.Proofs.Delivery.FirstAttempts

/-!
# What a retry does not hold back

The calls ahead of the sending worker stand in one line: those of its tour and those of the outbox.
Whatever comes joins at the end, a retry too, be it that it enters the outbox at once, that it waits
for room, or that it comes after a delay. So from any moment on, the calls that are made are those
of the line in their order, and only then others (`Served`); if the outbox is closed meanwhile
nothing more is called.

When a call fails, the line is led by the remaining peers of the delivery and by what is in the
outbox. The call that is made in its place, and any other of the same peer on the same behalf, comes
behind all of these (`retry_last`). A delivery that names a URI more than once owes a call for each
time; calls of this kind which already stand in the line are not retries, and are told from them by
their number.
-/

namespace PeerRelay.Delivery

open Observation World

/-! ### The line -/

/-- The calls ahead in a tour. -/
def Tour.remaining (t : Tour) : List Duty :=
  owe t.parcel.ticket t.parcel.message t.ahead

namespace Generation

/-- The calls for the remaining peers of the delivery under way and for what is in the outbox. -/
def front (g : Generation) : List Duty :=
  g.tour.toList.flatMap Tour.remaining ++ g.outbox.entries.flatMap Parcel.duties

section Places

variable (g : Generation) (who : Waiter) (p : Parcel)

/-- What is offered to the outbox stands behind everything that is in it, if it enters at all. -/
theorem front_prefix_offer : g.front <+: (g.offer who p).front := by
  rcases g.offer_cases who p with ⟨-, h⟩ | ⟨-, -, h⟩ | ⟨-, -, h⟩ <;> rw [h]
  · simp [front, Queue.push]
  · exact List.prefix_rfl

theorem front_prefix_reinject (clock : Nat) : g.front <+: (g.reinject clock p).front := by
  rcases g.reinject_cases clock p with ⟨due, h⟩ | h <;> rw [h]
  · exact List.prefix_rfl
  · exact g.front_prefix_offer .retry p

@[simp] theorem front_release : (g.release who).front = g.front := by
  rw [front, front, release_tour, release_outbox]

/-- The end of a visit leaves ahead what was ahead. -/
theorem remaining_next (t : Tour) : t.next.toList.flatMap Tour.remaining = t.remaining :=
  t.flatMap_next (fun last ↦ by simp [Tour.remaining, last]) rfl

end Places

variable {w : World} {g : Generation} {a : Action} {c : Change}

/-- While the outbox is open, an action that calls a peer takes the call from the front of the line,
and nothing joins but at the end. -/
theorem Acts.front (h : g.Acts w a c) (isOpen : c.generation.outbox.isOpen = true) :
    g.front <+: c.seen.filterMap attempt? ++ c.generation.front := by
  cases h with
  | forward s targets written p parcel storing waits => exact g.front_prefix_offer .storing p
  | reload ticket record rest next p parcel => exact g.front_prefix_offer .reload p
  | wake position due p sleeps isDue =>
    exact front_prefix_offer { g with sleeping := g.sleeping.eraseIdx position } .retry p
  | forget p ahead target removal leaving db done forgets =>
    simp [Generation.front, leaving, remaining_next, Tour.remaining, attempt?, List.filterMap_cons]
  | putBack p ahead target retrying =>
    have hnext : g.front = { g with tour := Tour.next ⟨p, ahead, .retrying target⟩ }.front := by
      simp [Generation.front, retrying, remaining_next, Tour.remaining]
    rw [hnext]
    exact front_prefix_reinject { g with tour := Tour.next ⟨p, ahead, .retrying target⟩ } _ _
  | enter who p rest first entered =>
    show g.front <+: [] ++ (release _ who).front
    rw [front_release]
    simp [Generation.front, Queue.push]
  | take p rest idle first =>
    simp [Generation.front, idle, first, Tour.remaining, Parcel.duties]
  | endTour p last => simp [Generation.front, last, Tour.remaining]
  | attempt p target ahead next =>
    simp [Generation.front, next, Tour.remaining, attempt?]
  | _ =>
    simp_all [Generation.front, Tour.remaining, attempt?, List.filterMap_cons, abortSending,
      Queue.abandon, Function.comp_def]

end Generation

/-! ### From a moment on -/

/-- Of a line that stood ahead, `later` saw the calls of its front made, and as long as the outbox
is open the rest of it still stands in front. -/
structure Served (line : List Duty) (g : Generation) (later : List Observation) : Prop where
  order : g.outbox.isOpen = true → line <+: history attempt? later ++ g.front
  served : line <+: history attempt? later ∨ history attempt? later <+: line

section Reached

variable {d : Directory} {db : Store.Database} {v w w' : World} {n : Nat}
  {g : Generation} {line : List Duty}

theorem served_of_prefix (h : line <+: g.front) : Served line g [] where
  order _ := h
  served := .inr List.nil_prefix

theorem Generation.Acts.served {a : Action} {c : Change} {later : List Observation}
    (h : g.Acts w a c) (hquiet : Quiet g) (hserved : Served line g later) :
    Served line c.generation (c.seen.reverse ++ later) := by
  have horder : c.generation.outbox.isOpen = true →
      line <+: history attempt? (c.seen.reverse ++ later) ++ c.generation.front := by
    intro hopen
    rw [history_seen, List.append_assoc]
    exact (hserved.order (h.outbox_of_closed hopen)).trans
      ((List.prefix_append_right_inj _).2 (h.front hopen))
  refine ⟨horder, ?_⟩
  cases hopen : c.generation.outbox.isOpen with
  | true => exact List.prefix_or_prefix_of_prefix (horder hopen) (List.prefix_append _ _)
  | false =>
    rw [history_seen, h.no_attempt hquiet hopen, List.append_nil]
    exact hserved.served

theorem Served.of_follows {m : Move} {next : Nat} {g' : Generation} {seen later : List Observation}
    (h : w.Follows n m g next g' seen) (hquiet : Quiet g) (hserved : Served line g later) :
    Served line g' (seen ++ later) := by
  cases h with
  | idle => exact hserved
  | refuse _ m targets closed inUse =>
    refine ⟨?_, ?_⟩
    · simpa [attempt?] using hserved.order
    · simpa [attempt?] using hserved.served
  | call _ m targets isOpen inUse =>
    refine ⟨?_, ?_⟩
    · simpa [Generation.front, attempt?] using hserved.order
    · simpa [attempt?] using hserved.served
  | act _ a c acts => exact acts.served hquiet hserved

/-- Whatever follows, the calls of the line are made first. -/
theorem served (hr : Reachable (initial d db) v) (hg : v.generations[n]? = some g)
    (hline : line <+: g.front) (hr' : Reachable v w) :
    ∃ g' later, w.generations[n]? = some g' ∧ w.traceOf n = later ++ v.traceOf n ∧
      Served line g' later := by
  refine Reaches.induct (P := fun w ↦ ∃ g' later, w.generations[n]? = some g' ∧
    w.traceOf n = later ++ v.traceOf n ∧ Served line g' later) hr'
    ⟨g, [], hg, rfl, served_of_prefix hline⟩ fun {u u' m} hu _ hmove ih ↦ ?_
  obtain ⟨g₁, later, hg₁, htrace, hserved⟩ := ih
  obtain ⟨g₂, seen, hg₂, htrace', hfollows⟩ := hmove.exists_follows hg₁
  refine ⟨g₂, seen ++ later, hg₂, ?_, hserved.of_follows hfollows (quiet (hr.trans hu) hg₁)⟩
  rw [htrace', htrace, List.append_assoc]

/-! ### The same call again -/

/-- The duty is owed to a peer with the URI on behalf of the ticket. -/
def Duty.isFor (ticket : Nat) (uri : String) (x : Duty) : Bool :=
  x.ticket = ticket ∧ x.target.uri = uri

/-- A call of some kind that is made when as many of its kind were made as stand in a line comes
behind the line. -/
theorem prefix_of_countP_le {α : Type} {line calls before after : List α} {x : α} {p : α → Bool}
    (h : line <+: calls ∨ calls <+: line) (hcalls : calls = before ++ x :: after)
    (hx : p x = true) (hcount : line.countP p ≤ before.countP p) : line <+: before := by
  have hbefore : before ++ [x] <+: calls := ⟨after, by simp [hcalls]⟩
  have hfew : ¬ before ++ [x] <+: line := by
    intro hline
    have hle : (before ++ [x]).countP p ≤ line.countP p := hline.sublist.countP_le
    rw [List.countP_append, List.countP_singleton, if_pos hx] at hle
    omega
  rcases h with hline | hline
  · by_cases hlength : line.length ≤ before.length
    · exact List.prefix_of_prefix_length_le hline ((List.prefix_append _ _).trans hbefore) hlength
    · refine absurd (List.prefix_of_prefix_length_le hbefore hline ?_) hfew
      rw [List.length_append, List.length_singleton]
      omega
  · exact absurd (hbefore.trans hline) hfew

section Calling

variable {p : Parcel} {ahead : List Instance} {target : Instance}

/-- What a generation owes became due. -/
theorem Owed.subperm {tr : List Observation} (h : Owed g tr) :
    g.pending.Subperm (tr.flatMap due) := by
  refine List.subperm_ext_iff.2 fun x _ ↦ ?_
  have hx := h.le x
  omega

/-- The call that is going on is owed besides those in front. -/
theorem countP_front_lt (calling : g.tour = some ⟨p, ahead, .calling target⟩) :
    g.front.countP (Duty.isFor p.ticket target.uri) <
      g.pending.countP (Duty.isFor p.ticket target.uri) := by
  simp [Generation.front, Generation.pending, queued, calling, Tour.remaining, Tour.duties,
    Leg.owed, Duty.isFor]
  omega

/-- The peers of a delivery are in front less often than the delivery was for them. -/
theorem exists_origin_of_calling (hr : Reachable (initial d db) w)
    (hg : w.generations[n]? = some g) (calling : g.tour = some ⟨p, ahead, .calling target⟩) :
    ∃ o ∈ w.traceOf n, o.origin? = some p.ticket ∧
      g.front.countP (Duty.isFor p.ticket target.uri) <
        o.due.countP (Duty.isFor p.ticket target.uri) := by
  have howed := owed hr hg
  have howes := g.mem_pending_of_owed calling (List.mem_singleton_self target)
  obtain ⟨o, ho, hdue⟩ := List.mem_flatMap.1 (howed.mem_due howes)
  have horigin : o.origin? = some p.ticket := ticket_of_due hdue
  refine ⟨o, ho, horigin, ?_⟩
  have hcount := howed.subperm.countP_le (Duty.isFor p.ticket target.uri)
  -- what is due on behalf of a ticket is due since one moment
  rw [← filter_due (origin_nodup hr hg) ho horigin, List.countP_filter]
  have hsame : ((w.traceOf n).flatMap due).countP (fun x ↦
      Duty.isFor p.ticket target.uri x && decide (x.ticket = p.ticket)) =
        ((w.traceOf n).flatMap due).countP (Duty.isFor p.ticket target.uri) := by
    refine List.countP_congr fun x _ ↦ ?_
    simp [Duty.isFor]
    tauto
  rw [hsame]
  exact (countP_front_lt calling).trans_le hcount

/-- A delivery that is for a peer once has no other call of the peer in front. -/
theorem countP_front_eq_zero (hr : Reachable (initial d db) w) (hg : w.generations[n]? = some g)
    (calling : g.tour = some ⟨p, ahead, .calling target⟩)
    (hdistinct : ∀ o ∈ w.traceOf n, o.origin? = some p.ticket →
      (o.due.map (·.target.uri)).Nodup) :
    g.front.countP (Duty.isFor p.ticket target.uri) = 0 := by
  obtain ⟨o, ho, horigin, hlt⟩ := exists_origin_of_calling hr hg calling
  have huris : o.due.countP (Duty.isFor p.ticket target.uri) ≤
      (o.due.map (·.target.uri)).count target.uri := by
    rw [List.count_eq_countP, List.countP_map]
    refine List.countP_mono_left fun x _ hx ↦ ?_
    simp only [Duty.isFor, decide_eq_true_eq] at hx
    simp [hx.2]
  have hone := List.nodup_iff_count_le_one.1 (hdistinct o ho horigin) target.uri
  omega

/-- A call fails: the failure is all that is seen, and what stood in front stands there. -/
theorem front_of_failed (hg : w.generations[n]? = some g)
    (calling : g.tour = some ⟨p, ahead, .calling target⟩)
    (hfails : w.move (.act n (.answer .fails)) = some v) :
    ∃ g', v.generations[n]? = some g' ∧ g'.front = g.front ∧
      v.traceOf n = .answered p.ticket p.message target false :: w.traceOf n := by
  have hlt := (List.getElem?_eq_some_iff.1 hg).1
  cases moves_of_move hfails with
  | act _ g₁ _ c at_n acts =>
    obtain rfl : g = g₁ := Option.some.inj (hg.symm.trans at_n)
    cases acts with
    | callFails p' ahead' target' calling' =>
      cases calling.symm.trans calling'
      refine ⟨_, List.getElem?_set_self hlt,
        by simp [Generation.front, calling, Tour.remaining], ?_⟩
      rw [traceOf, seenOf_append, seenOf_map_self, ← traceOf]
      rfl

/-- **A failing peer holds back nobody.** A call fails, in whatever state and with whatever limits.
Whatever happens from then on, and in whichever way the message is put back for the peer, at once,
after waiting for room, or after a delay, the calls that are made are first those for the remaining
peers of the delivery and for all that is in the outbox, in this order, and no other call is made
before they all were; while the outbox is open, those that were not made yet still stand in front of
everything else. So the call is made again only behind them: a call of the same peer on the same
behalf that is not itself one of them, because as many were made before it as there are among them,
comes when they all were made. If the delivery was for different URIs, there is none among them, and
every call of the peer on the same behalf comes behind all of them. -/
theorem retry_last (hr : Reachable (initial d db) w) (hg : w.generations[n]? = some g)
    (calling : g.tour = some ⟨p, ahead, .calling target⟩)
    (hfails : w.move (.act n (.answer .fails)) = some v) (hr' : Reachable v w') :
    g.front = owe p.ticket p.message ahead ++ g.outbox.entries.flatMap Parcel.duties ∧
      v.traceOf n = .answered p.ticket p.message target false :: w.traceOf n ∧
      ∃ g' later, w'.generations[n]? = some g' ∧ w'.traceOf n = later ++ v.traceOf n ∧
        (g.front <+: history attempt? later ∨ history attempt? later <+: g.front) ∧
        (g'.outbox.isOpen = true → g.front <+: history attempt? later ++ g'.front) ∧
        ∀ before x after, history attempt? later = before ++ x :: after →
          x.isFor p.ticket target.uri = true →
          (g.front.countP (Duty.isFor p.ticket target.uri) ≤
              before.countP (Duty.isFor p.ticket target.uri) → g.front <+: before) ∧
            ((∀ o ∈ w.traceOf n, o.origin? = some p.ticket →
              (o.due.map (·.target.uri)).Nodup) → g.front <+: before) := by
  obtain ⟨g₁, hg₁, hfront, htrace⟩ := front_of_failed hg calling hfails
  have hv : Reachable (initial d db) v := .step _ hr trivial hfails
  have hline : g.front <+: g₁.front := ⟨[], by rw [hfront, List.append_nil]⟩
  obtain ⟨g', later, hg', hlater, hserved⟩ := served hv hg₁ hline hr'
  refine ⟨by simp [Generation.front, calling, Tour.remaining], htrace, g', later, hg', hlater,
    hserved.served, hserved.order, fun before x after hcalls hx ↦ ?_⟩
  have hbehind := prefix_of_countP_le hserved.served hcalls hx
  refine ⟨hbehind, fun hdistinct ↦ hbehind ?_⟩
  rw [countP_front_eq_zero hr hg calling hdistinct]
  exact Nat.zero_le _

end Calling

end Reached

/-- The first of two peers is called for the first of two messages, and the second message fills the
outbox. -/
def crowdedCall : List Move :=
  [.start { sendCapacity := 1, retryDelay := 0 } .works,
    .submit 0 { (default : Message) with id := "1" } [], .act 0 (.arrive 0), .act 0 .accept,
    .act 0 .receive, .act 0 (.store .works), .act 0 .forward, .act 0 .take, .act 0 .attempt,
    .submit 0 { (default : Message) with id := "2" } [], .act 0 (.arrive 1), .act 0 .accept,
    .act 0 .receive, .act 0 (.store .works), .act 0 .forward]

/-- The retry finds the outbox full and waits for room until the second message is under way; its
peers fail as well. -/
def afterFailure : List Move :=
  let fails : List Move := [.act 0 (.answer .fails), .act 0 .lookUp, .act 0 .putBack]
  [.act 0 .lookUp, .act 0 .putBack, .act 0 (.wake 0), .act 0 .attempt, .act 0 (.answer .delivers),
    .act 0 .announce, .act 0 (.forget .works), .act 0 .take, .act 0 .enter, .act 0 .attempt] ++
    fails ++ [.act 0 .attempt] ++ fails ++ [.act 0 .take, .act 0 .attempt]

theorem retry_last_of_crowded :
    ∃ w v w' g p ahead later, Reachable (initial twoPeers .fresh) w ∧
      w.generations[0]? = some g ∧ g.tour = some ⟨p, ahead, .calling ⟨"a", "http://a"⟩⟩ ∧
      g.outbox.hasRoom = false ∧ w.move (.act 0 (.answer .fails)) = some v ∧ Reachable v w' ∧
      w'.traceOf 0 = later ++ v.traceOf 0 ∧ g.front.length = 3 ∧
      (∃ x ∈ history attempt? later, x.isFor p.ticket "http://a" = true) ∧
      ∀ before x after, history attempt? later = before ++ x :: after →
        x.isFor p.ticket "http://a" = true → g.front <+: before := by
  have hrun : ((initial twoPeers .fresh).run (fun _ _ ↦ True) crowdedCall).any (fun w ↦
      w.generations[0]?.any fun g ↦ g.outbox.hasRoom = false ∧ g.front.length = 3 ∧
        g.tour.any (fun t ↦ t.leg = .calling ⟨"a", "http://a"⟩ ∧
          (∀ o ∈ w.traceOf 0, o.origin? = some t.parcel.ticket →
            (o.due.map (·.target.uri)).Nodup) ∧
          (w.move (.act 0 (.answer .fails))).any fun v ↦
            (v.run (fun _ _ ↦ True) afterFailure).any fun w' ↦
              ((history attempt? (w'.traceOf 0)).drop (history attempt? (v.traceOf 0)).length).any
                (Duty.isFor t.parcel.ticket "http://a"))) = true := by
    decide +kernel
  obtain ⟨w, g, hr, hg, htest⟩ := exists_of_run hrun
  obtain ⟨hfull, hthree, htour⟩ := of_decide_eq_true htest
  obtain ⟨⟨p, ahead, leg⟩, calling, ht⟩ := (Option.any_eq_true _ _).1 htour
  obtain ⟨rfl, hdistinct, hmove⟩ := of_decide_eq_true ht
  obtain ⟨v, hfails, hv⟩ := (Option.any_eq_true _ _).1 hmove
  obtain ⟨w', hagain, hcalled⟩ := (Option.any_eq_true _ _).1 hv
  have hr' : Reachable v w' := reaches_of_run .start hagain
  obtain ⟨-, -, _, later, -, hlater, -, -, hlast⟩ := retry_last hr hg calling hfails hr'
  rw [hlater, history_append, List.drop_left] at hcalled
  exact ⟨w, v, w', g, p, ahead, later, hr, hg, calling, hfull, hfails, hr', hlater, hthree,
    List.any_eq_true.1 hcalled,
    fun before x after hcalls hx ↦ (hlast before x after hcalls hx).2 hdistinct⟩

end PeerRelay.Delivery
