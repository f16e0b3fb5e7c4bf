import Mathlib.Data.List.Perm.Basic
import Mathlib.Data.Set.List
import PeerRelay.Proofs.Store.Backlog
import PeerRelay.Proofs.Store.Restoring
import PeerRelay.Proofs.Text.Ordered

/-!
# A store is a backlog

The tables of a store represent a backlog (`Represents`): the rows of the messages are those of its
entries in their order, and the rows that belong to an entry list its peers by ascending positions
(`Listing`). Each operation answers what the backlog answers and leaves tables that represent what
the backlog has become, so a store that was set up from nothing answers any sequence of requests as
the empty backlog does (`answers_eq_backlog`).

The rows of one message stay in the order of their positions: a write puts them at the end of the
table one behind the other, and a removal only takes rows away. So reading them sorted by position
is reading them as they stand.
-/

namespace PeerRelay.Store

open Calendar

/-! ### Requests -/

/-- What a store can be asked for. -/
inductive Request where
  | write (m : Message) (targets : List Instance)
  | remove (id uri : String)
  | load
  | count
  | countByTarget
  /-- Closing the store and opening it again. -/
  | reopen

/-- What a store answers. -/
inductive Answer where
  | written (result : Except StoreFault Record)
  | done (result : Except StoreFault Unit)
  | loaded (result : Except StoreFault (List Record))
  | counted (result : Except StoreFault Nat)
  | counts (result : Except StoreFault (List (String × Nat)))

/-- What a store does with a request. -/
def Database.serve (db : Database) : Request → Answer × Database
  | .write m targets => (write db m targets).map .written id
  | .remove messageId uri => (remove db messageId uri).map .done id
  | .load => (Store.load db).map .loaded id
  | .count => (.counted (Store.count db), db)
  | .countByTarget => (.counts (Store.countByTarget db), db)
  | .reopen => (Migration.run db).map .done id

/-- What a backlog does with a request. -/
def Backlog.serve (b : Backlog) : Request → Answer × Backlog
  | .write m targets => (b.write m targets).map .written id
  | .remove id uri => (.done (.ok ()), b.remove id uri)
  | .load => (.loaded (.ok (b.entries.map Entry.record)), b)
  | .count => (.counted (.ok b.entries.length), b)
  | .countByTarget => (.counts (.ok b.countByTarget), b)
  | .reopen => (.done (.ok ()), b)

/-- The answers to requests that are made one after the other. -/
def answers {σ : Type} (serve : σ → Request → Answer × σ) (s : σ) : List Request → List Answer
  | [] => []
  | r :: rest => (serve s r).1 :: answers serve (serve s r).2 rest

/-- What the request writes has a date with a year of four digits. -/
def Request.FourDigitYear : Request → Prop
  | .write m _ => DateText.FourDigitYear m.date
  | _ => True

/-! ### Rows that list peers -/

/-- The rows of the peers of a message as they stand in the table. -/
def rowsOf (id : String) (targets : List TargetRow) : List TargetRow :=
  targets.filter (·.messageId = id)

/-- Rows that stand in the order of their positions are read as they stand. -/
theorem targetsOf_eq_rowsOf {id : String} {targets : List TargetRow}
    (h : (rowsOf id targets).Pairwise fun a b ↦ a.position < b.position) :
    targetsOf id targets = rowsOf id targets :=
  List.mergeSort_of_pairwise (h.imp fun hlt ↦ decide_eq_true hlt.le)

/-- The rows list the peers by ascending positions. -/
structure Listing (rows : List TargetRow) (l : List Instance) : Prop where
  same : List.Forall₂ (fun row i ↦ row.instance? = .ok i) rows l
  ascending : rows.Pairwise fun a b ↦ a.position < b.position

namespace Listing

variable {rows : List TargetRow} {l : List Instance}

theorem position_le_of_mem_targetRows {id : String} {position : Nat} {row : TargetRow}
    (h : row ∈ targetRows id position l) : position ≤ row.position := by
  induction l generalizing position with
  | nil => exact absurd h List.not_mem_nil
  | cons i rest ih =>
    rcases List.mem_cons.1 h with rfl | h
    · exact Nat.le_refl _
    · exact Nat.le_of_succ_le (ih h)

/-- The rows of a write list the peers of the write. -/
theorem targetRows (id : String) (position : Nat) (l : List Instance) :
    Listing (targetRows id position l) l := by
  induction l generalizing position with
  | nil => exact ⟨.nil, .nil⟩
  | cons i rest ih =>
    exact ⟨.cons rfl (ih (position + 1)).same, List.pairwise_cons.2
      ⟨fun _ hrow ↦ position_le_of_mem_targetRows hrow, (ih (position + 1)).ascending⟩⟩

/-- Without the rows of a URI the peers are listed without those of the URI. -/
theorem filter (h : Listing rows l) (uri : String) :
    Listing (rows.filter (·.uri ≠ .text uri)) (l.filter (·.uri ≠ uri)) where
  same := by
    refine List.rel_filter (fun row i hrow ↦ ?_) h.same
    show decide (row.uri ≠ .text uri) = true ↔ decide (i.uri ≠ uri) = true
    rw [uri_of_instance? hrow, decide_eq_true_iff, decide_eq_true_iff]
    exact not_congr ⟨Cell.text.inj, congrArg _⟩
  ascending := h.ascending.sublist List.filter_sublist

theorem uris (h : Listing rows l) : rows.map (·.uri) = l.map (.text ·.uri) :=
  map_eq_of_forall₂ (fun _ _ hrow ↦ uri_of_instance? hrow) h.same

theorem ne_nil_iff (h : Listing rows l) : rows ≠ [] ↔ l ≠ [] := by
  rw [← List.length_pos_iff, ← List.length_pos_iff, h.same.length_eq]

/-- The peers that are listed are those that are read. -/
theorem read {id : String} {targets : List TargetRow} (h : Listing (rowsOf id targets) l) :
    (targetsOf id targets).mapM TargetRow.instance? = .ok l := by
  rw [targetsOf_eq_rowsOf h.ascending]
  exact mapM_eq_ok.2 h.same

end Listing

/-! ### Tables that represent a backlog -/

/-- The rows of each entry list its peers, and each row belongs to an entry. -/
structure Lists (targets : List TargetRow) (entries : List Entry) : Prop where
  rows : ∀ e ∈ entries, Listing (rowsOf e.message.id targets) e.targets
  owner : ∀ row ∈ targets, ∃ e ∈ entries, e.message.id = row.messageId

/-- The tables hold the entries of a backlog in their order. -/
structure Represents (db : Database) (b : Backlog) : Prop where
  versions : db.versions = some [(Migration.currentVersion, "messages")]
  messages : db.messages = some (b.entries.map fun e ↦ .ofMessage e.message)
  targets : ∃ targets, db.targets = some targets ∧ Lists targets b.entries
  years : ∀ e ∈ b.entries, DateText.FourDigitYear e.message.date

theorem represents_fresh : Represents .fresh .empty where
  versions := rfl
  messages := rfl
  targets := ⟨[], rfl, fun _ h ↦ absurd h List.not_mem_nil, fun _ h ↦ absurd h List.not_mem_nil⟩
  years _ h := absurd h List.not_mem_nil

/-! ### Writing -/

section Write

variable {m : Message} {messages : List MessageRow} {targets : List TargetRow}

@[simp] theorem id_ofMessage (m : Message) : (MessageRow.ofMessage m).id = .text m.id := rfl

/-- The row of a message does not tell what is finer than a millisecond. -/
theorem ofMessage_asRead (m : Message) :
    MessageRow.ofMessage m.asRead = .ofMessage m := by
  unfold MessageRow.ofMessage Message.asRead
  dsimp only
  rw [DateText.encode_asRead]

/-- The row of a message goes where the entry goes. -/
theorem upsert_eq_putEntry {e : Entry} (entries : List Entry) (he : e.message = m.asRead) :
    upsert (.ofMessage m) (entries.map fun e ↦ .ofMessage e.message) =
      (Backlog.putEntry e entries).map fun e ↦ .ofMessage e.message := by
  have hrow : MessageRow.ofMessage e.message = .ofMessage m := by
    rw [he, ofMessage_asRead]
  have hid : e.message.id = m.id := by
    rw [he]
    rfl
  have hany : (entries.map fun e ↦ MessageRow.ofMessage e.message).any
      (·.id = (MessageRow.ofMessage m).id) = true ↔ e.message.id ∈ entries.map (·.message.id) := by
    rw [List.any_map, List.any_eq_true, List.mem_map, hid]
    refine exists_congr fun e' ↦ and_congr_right fun _ ↦ ?_
    exact decide_eq_true_iff.trans ⟨Cell.text.inj, congrArg _⟩
  rw [upsert, Backlog.putEntry]
  by_cases hold : e.message.id ∈ entries.map (·.message.id)
  · rw [if_pos (hany.2 hold), if_pos hold, List.map_map, List.map_map]
    refine List.map_congr_left fun e' _ ↦ ?_
    simp only [Function.comp_apply, id_ofMessage, Cell.text.injEq, ← hid]
    split
    · exact hrow.symm
    · rfl
  · rw [if_neg (mt hany.1 hold), if_neg hold, List.map_append, List.map_singleton, hrow]

theorem rowsOf_written_self (m : Message) (l : List Instance) (targets : List TargetRow) :
    rowsOf m.id (targets.filter (·.messageId ≠ m.id) ++ targetRows m.id 0 l) =
      targetRows m.id 0 l := by
  rw [rowsOf, List.filter_append, List.filter_filter, List.filter_eq_nil_iff.2, List.nil_append,
    List.filter_eq_self]
  · intro row hrow
    exact decide_eq_true (messageId_of_mem_targetRows hrow)
  · simp

theorem rowsOf_written_of_ne {id : String} (hne : id ≠ m.id) (l : List Instance)
    (targets : List TargetRow) :
    rowsOf id (targets.filter (·.messageId ≠ m.id) ++ targetRows m.id 0 l) =
      rowsOf id targets := by
  have hnew : rowsOf id (targetRows m.id 0 l) = [] := by
    refine List.filter_eq_nil_iff.2 fun row hrow hid ↦ hne ?_
    exact (of_decide_eq_true hid).symm.trans (messageId_of_mem_targetRows hrow)
  rw [rowsOf, List.filter_append, List.filter_filter]
  refine (congrArg (_ ++ ·) hnew).trans ((List.append_nil _).trans ?_)
  refine List.filter_congr fun row _ ↦ ?_
  by_cases hid : row.messageId = id <;> simp [hid, hne]

/-- Writing a message puts its entry. -/
theorem Represents.written {db : Database} {b : Backlog} (h : Represents db b)
    (hyear : DateText.FourDigitYear m.date) {i : Instance} {rest : List Instance}
    (hlists : Lists targets b.entries) :
    Represents
      (written m (distinctByUri (i :: rest)) (b.entries.map fun e ↦ .ofMessage e.message)
        targets db)
      (b.put (.ofWrite m (i :: rest) (List.cons_ne_nil _ _))) where
  versions := h.versions
  messages := congrArg some (upsert_eq_putEntry b.entries rfl)
  targets := by
    refine ⟨_, rfl, fun e he ↦ ?_, fun row hrow ↦ ?_⟩
    · rcases Backlog.mem_putEntry.1 he with rfl | ⟨he, hne⟩
      · rw [Entry.targets_ofWrite]
        exact (rowsOf_written_self m (distinctByUri (i :: rest)) targets).symm ▸
          Listing.targetRows m.id 0 _
      · rw [rowsOf_written_of_ne (m := m) hne]
        exact hlists.rows e he
    · rcases List.mem_append.1 hrow with hold | hnew
      · obtain ⟨hrow, hne⟩ := List.mem_filter.1 hold
        obtain ⟨e, he, hid⟩ := hlists.owner row hrow
        exact ⟨e, Backlog.mem_putEntry.2 (Or.inr ⟨he, hid ▸ of_decide_eq_true hne⟩), hid⟩
      · exact ⟨_, Backlog.mem_putEntry.2 (Or.inl rfl), (messageId_of_mem_targetRows hnew).symm⟩
  years e he := by
    rcases Backlog.mem_putEntry.1 he with rfl | ⟨he, -⟩
    · exact m.fourDigitYear_asRead.2 hyear
    · exact h.years e he

end Write

/-! ### Removing -/

section Remove

variable {id uri : String} {targets : List TargetRow} {entries : List Entry}

theorem rowsOf_removed_self (id uri : String) (targets : List TargetRow) :
    rowsOf id (targets.filter fun r ↦ ¬ (r.messageId = id ∧ r.uri = .text uri)) =
      (rowsOf id targets).filter (·.uri ≠ .text uri) := by
  rw [rowsOf, rowsOf, List.filter_filter, List.filter_filter]
  refine List.filter_congr fun row _ ↦ ?_
  by_cases hid : row.messageId = id <;> simp [hid]

theorem rowsOf_removed_of_ne {id' : String} (hne : id' ≠ id) (uri : String)
    (targets : List TargetRow) :
    rowsOf id' (targets.filter fun r ↦ ¬ (r.messageId = id ∧ r.uri = .text uri)) =
      rowsOf id' targets := by
  rw [rowsOf, List.filter_filter]
  refine List.filter_congr fun row _ ↦ ?_
  by_cases hid : row.messageId = id' <;> simp [hid, hne]

/-- The rows that are left list what is left of the entries. -/
theorem Lists.removed (h : Lists targets entries) (id uri : String) :
    Lists (targets.filter fun r ↦ ¬ (r.messageId = id ∧ r.uri = .text uri))
      (Backlog.removeTarget id uri entries) where
  rows e' he' := by
    rcases Backlog.mem_removeTarget.1 he' with ⟨he, hne⟩ | ⟨e, he, rfl, hleft⟩
    · rw [rowsOf_removed_of_ne hne]
      exact h.rows e' he
    · obtain ⟨hmessage, htargets⟩ := Entry.without_eq_some hleft
      rw [hmessage, htargets, rowsOf_removed_self]
      exact (h.rows e he).filter uri
  owner row hrow := by
    obtain ⟨hmem, hkept⟩ := List.mem_filter.1 hrow
    obtain ⟨e, he, hid⟩ := h.owner row hmem
    by_cases hsame : e.message.id = id
    · -- the row itself is listed among what is left of the entry
      have hleft : e.targets.filter (·.uri ≠ uri) ≠ [] := by
        refine ((h.rows e he).filter uri).ne_nil_iff.1 (List.ne_nil_of_mem (a := row) ?_)
        rw [hsame, ← rowsOf_removed_self]
        exact List.mem_filter.2 ⟨hrow, decide_eq_true (hid.symm.trans hsame)⟩
      obtain ⟨e', he'⟩ := Option.ne_none_iff_exists'.1 (mt Entry.without_eq_none.1 hleft)
      refine ⟨e', Backlog.mem_removeTarget.2 (Or.inr ⟨e, he, hsame, he'⟩), ?_⟩
      rw [(Entry.without_eq_some he').1, hid]
    · exact ⟨e, Backlog.mem_removeTarget.2 (Or.inl ⟨he, hsame⟩), hid⟩

/-- The row of a message goes when its entry does. -/
theorem map_removeTarget {left : List TargetRow}
    (hleft : ∀ e ∈ entries, e.message.id = id →
      (left.any (·.messageId = id) = true ↔ e.without uri ≠ none)) :
    (Backlog.removeTarget id uri entries).map (fun e ↦ MessageRow.ofMessage e.message) =
      withoutFinished id (entries.map fun e ↦ .ofMessage e.message) left := by
  rw [withoutFinished, Backlog.removeTarget]
  induction entries with
  | nil => simp
  | cons e rest ih =>
    specialize ih fun e he ↦ hleft e (List.mem_cons_of_mem _ he)
    by_cases hid : e.message.id = id
    · have hkept := hleft e List.mem_cons_self hid
      cases hwithout : e.without uri with
      | none =>
        rw [if_neg (by simpa [hwithout] using hkept)] at ih ⊢
        rw [List.filterMap_cons_none (by rw [if_pos hid, hwithout]), ih, List.map_cons,
          List.filter_cons_of_neg (by simp [hid])]
      | some e' =>
        rw [if_pos (hkept.2 (by simp [hwithout]))] at ih ⊢
        rw [List.filterMap_cons_some (by rw [if_pos hid, hwithout]), List.map_cons, List.map_cons,
          ih, (Entry.without_eq_some hwithout).1]
    · rw [List.filterMap_cons_some (by rw [if_neg hid]), List.map_cons, ih, List.map_cons]
      split
      · rfl
      · rw [List.filter_cons_of_pos (by simp [hid])]

/-- A row of the message is left when its entry is. -/
theorem Lists.any_removed (h : Lists targets entries) {e : Entry} (he : e ∈ entries)
    (uri : String) :
    (targets.filter fun r ↦ ¬ (r.messageId = e.message.id ∧ r.uri = .text uri)).any
      (·.messageId = e.message.id) = true ↔ e.without uri ≠ none := by
  have hrows := ((h.rows e he).filter uri).ne_nil_iff
  rw [← rowsOf_removed_self] at hrows
  rw [Ne, Entry.without_eq_none, ← Ne, ← hrows, rowsOf, List.any_eq_true]
  constructor
  · rintro ⟨row, hrow, hid⟩
    exact List.ne_nil_of_mem (List.mem_filter.2 ⟨hrow, hid⟩)
  · intro hne
    obtain ⟨row, hrow⟩ := List.exists_mem_of_ne_nil _ hne
    exact ⟨row, List.mem_filter.1 hrow⟩

theorem Represents.removed {db : Database} {b : Backlog} (h : Represents db b)
    (hlists : Lists targets b.entries) (id uri : String) :
    Represents (removed id uri (b.entries.map fun e ↦ .ofMessage e.message) targets db)
      (b.remove id uri) where
  versions := h.versions
  messages := by
    refine congrArg some (map_removeTarget ?_).symm
    rintro e he rfl
    exact hlists.any_removed he uri
  targets := ⟨_, rfl, hlists.removed id uri⟩
  years e' he' := by
    rcases Backlog.mem_removeTarget.1 he' with ⟨he, -⟩ | ⟨e, he, -, hleft⟩
    · exact h.years e' he
    · rw [(Entry.without_eq_some hleft).1]
      exact h.years e he

end Remove

/-! ### Reading -/

section Read

variable {db : Database} {b : Backlog}

/-- Every row is read. -/
theorem Represents.readRows (h : Represents db b) :
    readRows db = .ok (b.entries.map fun e ↦ (.ofMessage e.message, e.targets)) := by
  obtain ⟨targets, ht, hlists⟩ := h.targets
  have htyped : (b.entries.map fun e ↦ MessageRow.ofMessage e.message).mapM MessageRow.typed =
      .ok (b.entries.map fun e ↦ TypedRow.ofMessage e.message) :=
    mapM_eq_ok.2 (List.forall₂_map_left_iff.2 (List.forall₂_map_right_iff.2
      (List.forall₂_same.2 fun e _ ↦ typed_written e.message)))
  have hread : (b.entries.map fun e ↦ TypedRow.ofMessage e.message).mapM (fun row ↦ do
        return (row, ← (targetsOf row.id targets).mapM TargetRow.instance?)) =
      (.ok (b.entries.map fun e ↦ (.ofMessage e.message, e.targets)) :
        Except StoreFault (List (TypedRow × List Instance))) := by
    refine mapM_eq_ok.2 (List.forall₂_map_left_iff.2 (List.forall₂_map_right_iff.2
      (List.forall₂_same.2 fun e he ↦ ?_)))
    show (targetsOf e.message.id targets).mapM TargetRow.instance? >>= _ = _
    rw [(hlists.rows e he).read]
    rfl
  rw [Store.readRows, h.messages, ht]
  simp only [rows, ok_bind, htyped]
  exact hread

theorem purge_nil (db : Database) : purge db [] = db := by
  obtain ⟨versions, messages, targets, uriIndex⟩ := db
  cases messages <;> simp [purge]

theorem record?_cons (row : TypedRow) (i : Instance) (rest : List Instance) :
    record? (row, i :: rest) = row.message?.map (⟨·, i :: rest⟩) :=
  rfl

/-- What is read of an entry is its record. -/
theorem Entry.record?_eq (e : Entry) (hyear : DateText.FourDigitYear e.message.date) :
    record? (.ofMessage e.message, e.targets) = some e.record := by
  obtain ⟨i, rest, htargets⟩ := List.exists_cons_of_ne_nil e.targets_ne_nil
  rw [Entry.record, htargets, record?_cons, message?_written hyear, e.read_again]
  rfl

/-- No message is without peers. -/
theorem Represents.orphans {read : List (TypedRow × List Instance)} (h : Represents db b)
    (hread : Store.readRows db = .ok read) : (read.filter (·.2.isEmpty)).map (·.1.id) = [] := by
  obtain rfl := Except.ok.inj (hread.symm.trans h.readRows)
  refine List.map_eq_nil_iff.2 (List.filter_eq_nil_iff.2 fun r hr hempty ↦ ?_)
  obtain ⟨e, -, rfl⟩ := List.mem_map.1 hr
  exact e.targets_ne_nil (List.isEmpty_iff.1 hempty)

/-- Loading gives the entries as records, and purges nothing. -/
theorem Represents.load (h : Represents db b) :
    Store.load db = (.ok (b.entries.map Entry.record), db) := by
  have hrecords : (b.entries.map fun e ↦ (TypedRow.ofMessage e.message, e.targets)).filterMap
      record? = b.entries.map Entry.record := by
    rw [List.filterMap_map, ← List.filterMap_eq_map]
    exact List.filterMap_congr fun e he ↦ e.record?_eq (h.years e he)
  rw [Store.load, h.readRows]
  dsimp only
  rw [hrecords, h.orphans h.readRows, purge_nil]

theorem Represents.count (h : Represents db b) : Store.count db = .ok b.entries.length := by
  rw [Store.count, h.messages, rows]
  exact congrArg Except.ok (List.length_map _)

/-- Opening the store again changes nothing, since its version is recorded. -/
theorem Represents.reopen (h : Represents db b) : Migration.run db = (.ok (), db) := by
  obtain ⟨versions, messages, targets, uriIndex⟩ := db
  obtain rfl : versions = _ := h.versions
  rfl

end Read

/-! ### Counting -/

section Count

variable {targets : List TargetRow} {entries : List Entry}

/-- The items that have one of several keys, sorted by their keys. -/
theorem perm_flatMap_filter {α κ : Type} [DecidableEq κ] {key : α → κ} {keys : List κ}
    (hkeys : keys.Nodup) {l : List α} (h : ∀ a ∈ l, key a ∈ keys) :
    (keys.flatMap fun k ↦ l.filter (key · = k)).Perm l := by
  induction keys generalizing l with
  | nil =>
    rw [List.eq_nil_iff_forall_not_mem.2 fun a ha ↦ List.not_mem_nil (h a ha)]
    exact .nil
  | cons k rest ih =>
    obtain ⟨hk, hrest⟩ := List.nodup_cons.1 hkeys
    have hothers : ∀ a ∈ l.filter (fun a ↦ !decide (key a = k)), key a ∈ rest := by
      intro a ha
      obtain ⟨ha, hne⟩ := List.mem_filter.1 ha
      exact (List.mem_cons.1 (h a ha)).resolve_left (by simpa using hne)
    have hsame : (rest.flatMap fun k' ↦ l.filter (key · = k')) =
        rest.flatMap fun k' ↦ (l.filter (fun a ↦ !decide (key a = k))).filter (key · = k') := by
      refine List.flatMap_congr fun k' hk' ↦ ?_
      rw [List.filter_filter]
      refine List.filter_congr fun a _ ↦ ?_
      by_cases ha : key a = k'
      · have hne : k' ≠ k := fun heq ↦ hk (heq ▸ hk')
        simp [ha, hne]
      · simp [ha]
    rw [List.flatMap_cons, hsame]
    exact ((ih hrest hothers).append_left _).trans (List.filter_append_perm _ l)

/-- The URIs in the table are those of the entries, in another order. -/
theorem Lists.uris_perm (h : Lists targets entries)
    (hids : (entries.map (·.message.id)).Nodup) :
    (targets.map (·.uri)).Perm
      ((entries.flatMap fun e ↦ e.targets.map (·.uri)).map .text) := by
  have howner : ∀ row ∈ targets, row.messageId ∈ entries.map (·.message.id) := by
    intro row hrow
    obtain ⟨e, he, hid⟩ := h.owner row hrow
    exact List.mem_map.2 ⟨e, he, hid⟩
  have hrows : ((entries.flatMap fun e ↦ rowsOf e.message.id targets).map (·.uri)) =
      (entries.flatMap fun e ↦ e.targets.map (·.uri)).map .text := by
    rw [List.map_flatMap, List.map_flatMap]
    refine List.flatMap_congr fun e he ↦ ?_
    rw [(h.rows e he).uris, List.map_map]
    rfl
  rw [← hrows]
  refine (List.Perm.map _ ?_).symm
  have hperm := perm_flatMap_filter hids howner
  rwa [List.flatMap_map] at hperm

/-- How often a URI occurs among those of all entries is how many entries wait for it. -/
theorem count_uris (b : Backlog) (uri : String) :
    b.uris.count uri = b.entries.countP (·.waitsFor uri) := by
  rw [Backlog.uris]
  induction b.entries with
  | nil => rfl
  | cons e rest ih =>
    rw [List.flatMap_cons, List.count_append, ih, e.uris_nodup.count, List.countP_cons,
      Nat.add_comm]
    simp [Entry.waitsFor]

theorem Represents.countByTarget {db : Database} {b : Backlog} (h : Represents db b) :
    Store.countByTarget db = .ok b.countByTarget := by
  obtain ⟨targets, ht, hlists⟩ := h.targets
  have hperm := hlists.uris_perm b.ids_nodup
  -- the URIs of the table are texts, since they are those of the entries
  obtain ⟨uris, huris⟩ : targets.map (·.uri) ∈ Set.range (List.map Cell.text) := by
    rw [Set.range_list_map]
    intro cell hcell
    obtain ⟨uri, -, huri⟩ := List.mem_map.1 (hperm.mem_iff.1 hcell)
    exact ⟨uri, huri⟩
  have hsame : uris.Perm b.uris := by
    rw [← huris] at hperm
    exact (List.map_perm_map_iff fun _ _ ↦ Cell.text.inj).1 hperm
  have hread : targets.mapM (·.uri.text?) = .ok uris := by
    have hcells : List.Forall₂ (· = ·) (targets.map (·.uri)) (uris.map .text) := by
      rw [huris]
      exact List.forall₂_same.2 fun _ _ ↦ rfl
    refine mapM_eq_ok.2 ((List.forall₂_map_left_iff.1 (List.forall₂_map_right_iff.1 hcells)).imp ?_)
    intro row uri huri
    rw [huri, Cell.text?]
  rw [Store.countByTarget, ht]
  simp only [rows, ok_bind, hread]
  refine congrArg Except.ok ((Text.TextMap.entries_foldl_count uris).trans ?_)
  rw [Text.TextSet.toList_ofList_perm hsame]
  exact List.map_congr_left fun uri _ ↦ Prod.ext rfl ((hsame.count_eq uri).trans (count_uris b uri))

end Count

/-! ### Answers -/

/-- A request is answered as the backlog answers it, and leaves what the backlog has become. -/
theorem Represents.serve {db : Database} {b : Backlog} (h : Represents db b) (request : Request)
    (hyear : request.FourDigitYear) :
    (db.serve request).1 = (b.serve request).1 ∧
      Represents (db.serve request).2 (b.serve request).2 := by
  obtain ⟨targets, ht, hlists⟩ := h.targets
  cases request with
  | write m l =>
    cases l with
    | nil => exact ⟨rfl, h⟩
    | cons i rest =>
      rw [Database.serve, write_of_tables h.messages ht (List.cons_ne_nil i rest)]
      exact ⟨congrArg (fun l ↦ Answer.written (.ok ⟨m, l⟩)) (distinctByUri_eq_eraseDupsBy _),
        h.written hyear hlists⟩
  | remove id uri =>
    rw [Database.serve, remove_of_tables id uri h.messages ht]
    exact ⟨rfl, h.removed hlists id uri⟩
  | load =>
    rw [Database.serve, h.load]
    exact ⟨rfl, h⟩
  | count => exact ⟨congrArg Answer.counted h.count, h⟩
  | countByTarget => exact ⟨congrArg Answer.counts h.countByTarget, h⟩
  | reopen =>
    rw [Database.serve, h.reopen]
    exact ⟨rfl, h⟩

theorem Represents.answers {db : Database} {b : Backlog} (h : Represents db b)
    {requests : List Request} (hyear : ∀ request ∈ requests, request.FourDigitYear) :
    answers Database.serve db requests = answers Backlog.serve b requests := by
  induction requests generalizing db b with
  | nil => rfl
  | cons request rest ih =>
    obtain ⟨hanswer, hnext⟩ := h.serve request (hyear request List.mem_cons_self)
    rw [Store.answers, Store.answers, hanswer,
      ih hnext fun request hmem ↦ hyear request (List.mem_cons_of_mem _ hmem)]

/-- **A store that was set up from nothing answers as the empty backlog does.** -/
theorem answers_eq_backlog (requests : List Request)
    (hyear : ∀ request ∈ requests, request.FourDigitYear) :
    answers Database.serve .fresh requests = answers Backlog.serve .empty requests :=
  represents_fresh.answers hyear

instance : DecidablePred Request.FourDigitYear := fun request ↦
  match request with
  | .write m _ => inferInstanceAs (Decidable (DateText.FourDigitYear m.date))
  | .remove _ _ | .load | .count | .countByTarget | .reopen => inferInstanceAs (Decidable True)

/-- Two messages of which the first is written again after one of its peers was taken off, and the
second after it had gone. -/
def rewrites : List Request :=
  let first : Message := { (default : Message) with id := "1" }
  let second : Message := { (default : Message) with id := "2" }
  [.write first [⟨"b", "http://b"⟩, ⟨"a", "http://a"⟩, ⟨"c", "http://b"⟩],
    .write second [⟨"a", "http://a"⟩], .remove "1" "http://b",
    .write { first with kind := "again" } [⟨"c", "http://c"⟩, ⟨"a", "http://a"⟩],
    .remove "2" "http://a", .write second [], .count, .write second [⟨"a", "http://a"⟩], .reopen,
    .load, .countByTarget]

theorem answers_eq_backlog_of_rewrites :
    (∀ request ∈ rewrites, request.FourDigitYear) ∧
      answers Database.serve .fresh rewrites = answers Backlog.serve .empty rewrites ∧
      (answers Backlog.serve .empty rewrites).drop 5 =
        [.written (.error (.noTarget "2")), .counted (.ok 1),
          .written (.ok ⟨{ (default : Message) with id := "2" }, [⟨"a", "http://a"⟩]⟩),
          .done (.ok ()),
          .loaded (.ok [
            ⟨{ (default : Message) with id := "1", kind := "again" },
              [⟨"c", "http://c"⟩, ⟨"a", "http://a"⟩]⟩,
            ⟨{ (default : Message) with id := "2" }, [⟨"a", "http://a"⟩]⟩]),
          .counts (.ok [("http://a", 2), ("http://c", 1)])] :=
  ⟨by decide, answers_eq_backlog rewrites (by decide), by rfl⟩

end PeerRelay.Store
