import PeerRelay.Proofs.Store.Reopening
import PeerRelay.Proofs.Store.Transactions

/-!
# Removals in any order

What a removal does depends on the removals before it, as the one that takes the last peer off a
message takes the message with it. What removals leave does not: as long as every message waits for
a peer, each of them leaves the rows of the peers that were not taken off, and the messages to which
such a row belongs (`Database.without`). Two rounds of this are one round for the pairs of both
(`Database.without_without`), so that only the set of all pairs counts.

That every message waits for a peer holds of all states that the operations of a store reach,
whatever the dates of the messages and whichever operations fail (`Operated.awaited`). It is needed:
a removal that finds nothing to take off would delete a message that waits for nobody.
-/

namespace PeerRelay.Store

/-- The states that a store reaches from nothing by its own operations, whether or not they succeed;
loading may be broken off while it deletes messages without peers. -/
inductive Operated : Database → Prop
  | fresh : Operated .fresh
  | updated {db} (h : Operated db) (fails : Nat → Bool) (u : Update) : Operated (u.run db fails).2
  | loaded {db} (h : Operated db) : Operated (load db).2
  | brokenOff {db read} (h : Operated db) (hread : readRows db = .ok read) (n : Nat) :
    Operated (purge db (((read.filter (·.2.isEmpty)).map (·.1.id)).take n))
  | reopened {db} (h : Operated db) : Operated (Migration.run db).2

/-! ### Messages that wait -/

/-- Each of some messages waits for one of some peers. -/
def AllWait (messages : List MessageRow) (targets : List TargetRow) : Prop :=
  ∀ row ∈ messages, ∃ t ∈ targets, row.id = .text t.messageId

/-- The store is set up, and each of its messages waits for a peer. -/
structure Awaited (db : Database) : Prop where
  recorded : Migration.Recorded db
  allWait : ∃ messages targets, db.messages = some messages ∧ db.targets = some targets ∧
    AllWait messages targets

section AllWait

variable {db db' : Database} {messages : List MessageRow} {targets : List TargetRow}

theorem awaited_fresh : Awaited .fresh where
  recorded := ⟨Migration.currentVersion, Int.le_refl _, rfl⟩
  allWait := ⟨[], [], rfl, rfl, fun _ hrow ↦ absurd hrow List.not_mem_nil⟩

/-- The setup stays recorded as long as the versions stay the same. -/
theorem Awaited.of_tables (h : Awaited db) (hversions : db'.versions = db.versions)
    (hm : db'.messages = some messages) (ht : db'.targets = some targets)
    (hwait : AllWait messages targets) : Awaited db' := by
  obtain ⟨version, hle, hversion⟩ := h.recorded
  exact ⟨⟨version, hle, (Migration.recordedVersion_congr hversions).trans hversion⟩,
    messages, targets, hm, ht, hwait⟩

/-- A message that is written for some peer waits for it, and the others wait as before. -/
theorem AllWait.written (h : AllWait messages targets) (m : Message) {distinct : List Instance}
    (hdistinct : distinct ≠ []) : AllWait (upsert (.ofMessage m) messages)
      (targets.filter (·.messageId ≠ m.id) ++ targetRows m.id 0 distinct) := by
  intro row hrow
  by_cases hid : row.id = .text m.id
  · obtain ⟨i, rest, rfl⟩ := List.exists_cons_of_ne_nil hdistinct
    exact ⟨_, List.mem_append_right _ List.mem_cons_self, hid⟩
  · have hbefore : row ∈ messages := by
      rcases mem_of_mem_upsert hrow with rfl | hbefore
      · exact absurd rfl hid
      · exact hbefore
    obtain ⟨t, ht, howner⟩ := h row hbefore
    have hother : t.messageId ≠ m.id := fun heq ↦ hid (heq ▸ howner)
    exact ⟨t, List.mem_append_left _ (List.mem_filter.2 ⟨ht, decide_eq_true hother⟩), howner⟩

/-- Deleting messages leaves those that wait. -/
theorem AllWait.purged (h : AllWait messages targets) (p : MessageRow → Bool) :
    AllWait (messages.filter p) targets :=
  fun row hrow ↦ h row (List.mem_of_mem_filter hrow)

end AllWait

/-! ### Without some pairs -/

section Without

variable {db : Database} {pairs more : List (String × String)} {messages : List MessageRow}
  {targets : List TargetRow}

/-- The peers that are left when pairs of a message and a URI are taken off. -/
def keptTargets (pairs : List (String × String)) (targets : List TargetRow) : List TargetRow :=
  targets.filter fun t ↦ ¬ ∃ pair ∈ pairs, t.messageId = pair.1 ∧ t.uri = .text pair.2

/-- The messages that wait for one of the peers that are left. -/
def waitingMessages (messages : List MessageRow) (targets : List TargetRow) : List MessageRow :=
  messages.filter fun row ↦ targets.any fun t ↦ row.id = .text t.messageId

/-- The store without some pairs of a message and a URI. -/
def Database.without (pairs : List (String × String)) (db : Database) : Database :=
  let kept := keptTargets pairs (db.targets.getD [])
  { db with
    messages := db.messages.map (waitingMessages · kept)
    targets := db.targets.map (keptTargets pairs) }

theorem allWait_waitingMessages (messages : List MessageRow) (targets : List TargetRow) :
    AllWait (waitingMessages messages targets) targets := by
  intro row hrow
  obtain ⟨t, ht, howner⟩ := List.any_eq_true.1 (List.mem_filter.1 hrow).2
  exact ⟨t, ht, of_decide_eq_true howner⟩

theorem waitingMessages_eq_self (h : AllWait messages targets) :
    waitingMessages messages targets = messages := by
  refine List.filter_eq_self.2 fun row hrow ↦ ?_
  obtain ⟨t, ht, howner⟩ := h row hrow
  exact List.any_eq_true.2 ⟨t, ht, decide_eq_true howner⟩

/-- Who waits for one of fewer peers waits for one of more. -/
theorem waitingMessages_waitingMessages {left : List TargetRow} (h : left ⊆ targets) :
    waitingMessages (waitingMessages messages targets) left = waitingMessages messages left := by
  rw [waitingMessages, waitingMessages, List.filter_filter]
  refine List.filter_congr fun row _ ↦ ?_
  rw [Bool.and_eq_left_iff_imp]
  intro hleft
  obtain ⟨t, ht, howner⟩ := List.any_eq_true.1 hleft
  exact List.any_eq_true.2 ⟨t, h ht, howner⟩

theorem keptTargets_subset (pairs : List (String × String)) (targets : List TargetRow) :
    keptTargets pairs targets ⊆ targets :=
  List.filter_subset_self _

theorem keptTargets_keptTargets (pairs more : List (String × String)) (targets : List TargetRow) :
    keptTargets more (keptTargets pairs targets) = keptTargets (pairs ++ more) targets := by
  rw [keptTargets, keptTargets, List.filter_filter]
  refine List.filter_congr fun t _ ↦ ?_
  simp only [← Bool.decide_and, List.mem_append, or_and_right, exists_or, not_or, and_comm]

namespace Database

theorem without_eq (hm : db.messages = some messages) (ht : db.targets = some targets) :
    db.without pairs = { db with
      messages := some (waitingMessages messages (keptTargets pairs targets))
      targets := some (keptTargets pairs targets) } := by
  rw [without, hm, ht]
  rfl

/-- What is without some pairs and then without more is without the pairs of both. -/
theorem without_without (hm : db.messages = some messages) (ht : db.targets = some targets) :
    (db.without pairs).without more = db.without (pairs ++ more) := by
  rw [without_eq hm ht, without_eq rfl rfl, without_eq hm ht, keptTargets_keptTargets,
    waitingMessages_waitingMessages]
  rw [← keptTargets_keptTargets]
  exact keptTargets_subset _ _

/-- What is left depends on the set of the pairs only. -/
theorem without_congr (h : ∀ pair, pair ∈ pairs ↔ pair ∈ more) :
    db.without pairs = db.without more := by
  have hkept : keptTargets pairs = keptTargets more := by
    funext targets
    simp only [keptTargets, h]
  rw [without, without, hkept]

end Database

namespace Awaited

/-- Every message that is left waits for a peer that is left. -/
theorem without (h : Awaited db) (pairs : List (String × String)) :
    Awaited (db.without pairs) := by
  obtain ⟨messages, targets, hm, ht, -⟩ := h.allWait
  rw [Database.without_eq hm ht]
  exact h.of_tables rfl rfl rfl (allWait_waitingMessages _ _)

/-- Nothing is missed where no peer is taken off. -/
theorem without_eq_self (h : Awaited db)
    (hnone : ∀ id uri, (id, uri) ∈ pairs → ¬ db.Wants id uri) : db.without pairs = db := by
  obtain ⟨messages, targets, hm, ht, hwait⟩ := h.allWait
  have hkept : keptTargets pairs targets = targets := by
    refine List.filter_eq_self.2 fun t hmem ↦ decide_eq_true ?_
    rintro ⟨⟨id, uri⟩, hpair, hid, huri⟩
    exact hnone id uri hpair ⟨targets, ht, t, hmem, hid, huri⟩
  rw [Database.without_eq hm ht, hkept, waitingMessages_eq_self hwait, ← hm, ← ht]

/-- A removal takes its pair off. The message goes with it if no peer of it is left, and as it
waited for a peer, this is when it would wait for nobody. -/
theorem remove_eq (h : Awaited db) (id uri : String) :
    Store.remove db id uri = (.ok (), db.without [(id, uri)]) := by
  obtain ⟨messages, targets, hm, ht, hwait⟩ := h.allWait
  have hkept : (targets.filter fun t ↦ ¬ (t.messageId = id ∧ t.uri = .text uri)) =
      keptTargets [(id, uri)] targets := by
    simp only [keptTargets, List.mem_singleton, exists_eq_left]
  have hmessages : withoutFinished id messages (keptTargets [(id, uri)] targets) =
      waitingMessages messages (keptTargets [(id, uri)] targets) := by
    have hother : ∀ t ∈ targets, t.messageId ≠ id → t ∈ keptTargets [(id, uri)] targets :=
      fun t hmem hne ↦ by simp [keptTargets, hmem, hne]
    generalize keptTargets [(id, uri)] targets = kept at hother
    rw [withoutFinished]
    split
    case isTrue hany =>
      -- a peer of the message is left, so that all messages wait as before
      refine (waitingMessages_eq_self fun row hrow ↦ ?_).symm
      obtain ⟨t, hmem, howner⟩ := hwait row hrow
      by_cases hid : t.messageId = id
      · obtain ⟨t', hmem', hid'⟩ := List.any_eq_true.1 hany
        exact ⟨t', hmem', by rw [howner, hid, of_decide_eq_true hid']⟩
      · exact ⟨t, hother t hmem hid, howner⟩
    case isFalse hnone =>
      refine List.filter_congr fun row hrow ↦ ?_
      rw [Bool.eq_iff_iff, decide_eq_true_iff, List.any_eq_true]
      constructor
      · intro hid
        obtain ⟨t, hmem, howner⟩ := hwait row hrow
        exact ⟨t, hother t hmem fun heq ↦ hid (heq ▸ howner), decide_eq_true howner⟩
      · rintro ⟨t, hmem, howner⟩ hid
        have heq : t.messageId = id := Cell.text.inj ((of_decide_eq_true howner).symm.trans hid)
        exact hnone (List.any_eq_true.2 ⟨t, hmem, decide_eq_true heq⟩)
  rw [remove_of_tables id uri hm ht, removed, Database.without_eq hm ht, ← hmessages, ← hkept]

/-- A removal that succeeds although the engine may fail does the same. -/
theorem eq_without_of_remove (h : Awaited db) {fails : Nat → Bool} {id uri : String}
    {left : Database} (hremove : Store.remove db id uri fails = (.ok (), left)) :
    left = db.without [(id, uri)] := by
  have hquiet := Update.run_of_fails (u := .remove id uri) (congrArg Prod.fst hremove)
  rw [Update.run, Update.run, hremove, h.remove_eq] at hquiet
  exact (Prod.mk.inj hquiet).2.symm

end Awaited

end Without

/-! ### Every state that operations reach -/

section Operated

variable {db : Database}

/-- An update that succeeds leaves every message waiting. -/
theorem Awaited.updated (h : Awaited db) (fails : Nat → Bool) (u : Update) :
    Awaited (u.run db fails).2 := by
  cases hrun : u.run db fails with
  | mk result left =>
    cases result with
    | error fault => exact Update.run_eq_error hrun ▸ h
    | ok _ =>
      cases u with
      | write m l =>
        cases hwrite : Store.write db m l fails with
        | mk answer left' =>
          rw [Update.run, hwrite] at hrun
          cases answer with
          | error fault => cases hrun
          | ok record =>
            obtain rfl := (Prod.mk.inj hrun).2
            obtain ⟨messages, targets, hm, ht, hwait⟩ := h.allWait
            obtain ⟨-, messages', targets', hm', ht', rfl⟩ := write_eq_ok hwrite
            obtain rfl := Option.some.inj (hm.symm.trans hm')
            obtain rfl := Option.some.inj (ht.symm.trans ht')
            have hne : distinctByUri l ≠ [] := by
              rintro hnil
              rw [Store.write, hnil] at hwrite
              cases hwrite
            exact h.of_tables rfl rfl rfl (hwait.written m hne)
      | remove id uri =>
        rw [h.eq_without_of_remove hrun]
        exact h.without _

theorem Awaited.purge (h : Awaited db) (ids : List String) : Awaited (Store.purge db ids) := by
  obtain ⟨messages, targets, hm, ht, hwait⟩ := h.allWait
  exact h.of_tables rfl (congrArg (Option.map _) hm) ht (hwait.purged _)

/-- In every state that the operations of a store reach, each message waits for a peer. -/
theorem Operated.awaited (h : Operated db) : Awaited db := by
  induction h with
  | fresh => exact awaited_fresh
  | updated _ fails u ih => exact ih.updated fails u
  | loaded _ ih =>
    rw [load]
    split
    · exact ih
    · exact ih.purge _
  | brokenOff _ _ n ih => exact ih.purge _
  | reopened _ ih => rwa [ih.recorded.run_eq]

/-! ### Several removals -/

/-- Takes peers off messages, one after the other, until the store fails. -/
def removeAll (db : Database) : List (String × Instance) → Except StoreFault Database
  | [] => .ok db
  | (id, target) :: rest =>
    match remove db id target.uri with
    | (.ok (), db) => removeAll db rest
    | (.error fault, _) => .error fault

/-- What a call of a removal is about: the name of the peer is of no account. -/
def pairOf (call : String × Instance) : String × String :=
  (call.1, call.2.uri)

/-- Removals leave the store without their pairs. -/
theorem Awaited.removeAll_eq (h : Awaited db) (calls : List (String × Instance)) :
    removeAll db calls = .ok (db.without (calls.map pairOf)) := by
  induction calls generalizing db with
  | nil =>
    have hsame := h.without_eq_self fun _ _ hmem ↦ absurd hmem List.not_mem_nil
    exact congrArg Except.ok hsame.symm
  | cons call rest ih =>
    obtain ⟨id, target⟩ := call
    obtain ⟨messages, targets, hm, ht, -⟩ := h.allWait
    rw [removeAll, h.remove_eq]
    show removeAll (db.without [(id, target.uri)]) rest = _
    rw [ih (h.without _), Database.without_without hm ht]
    rfl

/-- **What removals leave does not depend on their order, nor on how often each is made.** In every
state that the operations of a store reach, two sequences of removals with the same pairs of a
message and a URI succeed and leave the same tables: those without the pairs. A removal whose pair
is not stored changes nothing, whether or not it succeeds. -/
theorem removals_confluent (h : Operated db) :
    (∀ calls calls' : List (String × Instance),
      (∀ pair, pair ∈ calls.map pairOf ↔ pair ∈ calls'.map pairOf) →
      removeAll db calls = .ok (db.without (calls.map pairOf)) ∧
        removeAll db calls' = .ok (db.without (calls.map pairOf))) ∧
    ∀ id (target : Instance) fails, ¬ db.Wants id target.uri →
      (remove db id target.uri fails).2 = db := by
  have hawaited := h.awaited
  refine ⟨fun calls calls' hsame ↦ ⟨hawaited.removeAll_eq calls, ?_⟩,
    fun id target fails hnone ↦ ?_⟩
  · rw [hawaited.removeAll_eq, Database.without_congr hsame]
  · cases hremove : remove db id target.uri fails with
    | mk result left =>
      cases result with
      | error fault => exact remove_eq_error hremove
      | ok _ =>
        rw [hawaited.eq_without_of_remove hremove]
        refine hawaited.without_eq_self fun id' uri' hmem ↦ ?_
        obtain ⟨rfl, rfl⟩ := Prod.mk.inj (List.mem_singleton.1 hmem)
        exact hnone

end Operated

/-- A store with two messages for one peer, the first of them for another one too. -/
def twoStored : Database :=
  let a : Instance := ⟨"a", "http://a"⟩
  let first := Update.write { (default : Message) with id := "1" } [a, ⟨"b", "http://b"⟩]
  let second := Update.write { (default : Message) with id := "2" } [a]
  (second.run (first.run .fresh fun _ ↦ false).2 fun _ ↦ false).2

/-- The second message goes and the first one stays, in whatever order and however often the peer is
taken off, and under whatever name. -/
theorem removals_confluent_of_repeated :
    let a : Instance := ⟨"a", "http://a"⟩
    let calls := [("2", a), ("1", a), ("3", a)]
    let calls' := [("1", ⟨"renamed", "http://a"⟩), ("3", a), ("1", a), ("2", a), ("2", a)]
    Operated twoStored ∧ (∀ pair, pair ∈ calls.map pairOf ↔ pair ∈ calls'.map pairOf) ∧
      (∃ left, removeAll twoStored calls = .ok left ∧ removeAll twoStored calls' = .ok left ∧
        left.messages.map (·.map (·.id)) = some [.text "1"] ∧
        left.targets.map (·.map (·.uri)) = some [.text "http://b"]) ∧
      ¬ twoStored.Wants "2" "http://b" ∧ (remove twoStored "2" "http://b").2 = twoStored := by
  intro a calls calls'
  have hoperated : Operated twoStored := (Operated.fresh.updated _ _).updated _ _
  have hsame : ∀ pair, pair ∈ calls.map pairOf ↔ pair ∈ calls'.map pairOf := by
    intro pair
    simp only [calls, calls', pairOf, List.map_cons, List.map_nil, List.mem_cons,
      List.not_mem_nil, or_false]
    tauto
  have hrows : ∀ row ∈ twoStored.targets.getD [],
      ¬ (row.messageId = "2" ∧ row.uri = .text "http://b") := by
    decide
  have hnone : ¬ twoStored.Wants "2" "http://b" := by
    rintro ⟨targets, ht, row, hrow, hpair⟩
    rw [ht] at hrows
    exact hrows row hrow hpair
  obtain ⟨hany, habsent⟩ := removals_confluent hoperated
  obtain ⟨hcalls, hcalls'⟩ := hany calls calls' hsame
  exact ⟨hoperated, hsame, ⟨_, hcalls, hcalls', by decide, by decide⟩, hnone,
    habsent "2" ⟨"b", "http://b"⟩ _ hnone⟩

end PeerRelay.Store
