import Mathlib.Data.List.Nodup
import PeerRelay.Proofs.Outcome
import PeerRelay.Proofs.Store.Targets
import PeerRelay.Store.Basic

/-!
# The tables after an operation

What a store operation that succeeds leaves in the two tables, as equations: a write puts the row of
the message in place and the rows of its peers at the end (`write_eq_ok`), a removal takes away one
row of a peer, and the row of the message with its last peer (`remove_eq_ok`). An operation that
fails leaves the database as it was (`write_eq_error`, `remove_eq_error`). While the engine does not
fail and both tables are there, both operations succeed (`write_of_tables`, `remove_of_tables`).

The statements of an operation are read one by one here and nowhere else.
-/

namespace PeerRelay.Store

/-! ### Statements -/

theorem rows_eq_ok {α : Type} {table : Option α} {t : α} : rows table = .ok t ↔ table = some t := by
  cases table <;> simp [rows]

/-- A statement that succeeds is followed by the rest. -/
theorem runStatements_cons_eq_ok {fails : Nat → Bool} {n : Nat} {db db' : Database} {s : Statement}
    {rest : List Statement} (h : runStatements fails n db (s :: rest) = .ok db') :
    ∃ next, s.exec db = .ok next ∧ runStatements fails (n + 1) next rest = .ok db' := by
  rw [runStatements] at h
  split at h
  · contradiction
  · exact bind_eq_ok.1 h

theorem exec_putMessage {db db' : Database} {row : MessageRow}
    (h : (Statement.putMessage row).exec db = .ok db') :
    ∃ messages, db.messages = some messages ∧
      db' = { db with messages := some (upsert row messages) } := by
  simp only [Statement.exec, bind_eq_ok, rows_eq_ok, pure_eq_ok] at h
  obtain ⟨messages, hm, rfl⟩ := h
  exact ⟨messages, hm, rfl⟩

theorem exec_clearTargets {db db' : Database} {id : String}
    (h : (Statement.clearTargets id).exec db = .ok db') :
    ∃ targets, db.targets = some targets ∧
      db' = { db with targets := some (targets.filter (·.messageId ≠ id)) } := by
  simp only [Statement.exec, bind_eq_ok, rows_eq_ok, discard_eq_ok, pure_eq_ok] at h
  obtain ⟨targets, ht, -, -, rfl⟩ := h
  exact ⟨targets, ht, rfl⟩

theorem exec_insertTarget {db db' : Database} {row : TargetRow}
    (h : (Statement.insertTarget row).exec db = .ok db') :
    ∃ targets, db.targets = some targets ∧
      (∀ r ∈ targets, ¬ (r.messageId = row.messageId ∧ r.uri = row.uri)) ∧
      db' = { db with targets := some (targets ++ [row]) } := by
  simp only [Statement.exec, bind_eq_ok, rows_eq_ok] at h
  obtain ⟨targets, ht, messages, -, h⟩ := h
  split at h
  · rename_i hguard
    rw [pure_eq_ok] at h
    exact ⟨targets, ht, by simpa using hguard.2, h.symm⟩
  · contradiction

theorem exec_deleteTarget {db db' : Database} {id uri : String}
    (h : (Statement.deleteTarget id uri).exec db = .ok db') :
    ∃ messages targets, db.messages = some messages ∧ db.targets = some targets ∧
      db' = { db with
        targets := some (targets.filter fun r ↦ ¬ (r.messageId = id ∧ r.uri = .text uri)) } := by
  simp only [Statement.exec, bind_eq_ok, rows_eq_ok, discard_eq_ok, pure_eq_ok] at h
  obtain ⟨targets, ht, -, ⟨messages, hm⟩, rfl⟩ := h
  exact ⟨messages, targets, hm, ht, rfl⟩

theorem exec_countTargets {db db' : Database} {id : String}
    (h : (Statement.countTargets id).exec db = .ok db') : db' = db := by
  simp only [Statement.exec, bind_eq_ok, pure_eq_ok] at h
  obtain ⟨-, -, rfl⟩ := h
  rfl

/-- The rows of messages without a message that has no peers. -/
def withoutFinished (id : String) (messages : List MessageRow) (targets : List TargetRow) :
    List MessageRow :=
  if targets.any (·.messageId = id) then messages else messages.filter (·.id ≠ .text id)

theorem exec_deleteFinished {db db' : Database} {id : String} {messages : List MessageRow}
    {targets : List TargetRow} (hm : db.messages = some messages) (ht : db.targets = some targets)
    (h : (Statement.deleteFinished id).exec db = .ok db') :
    db' = { db with messages := some (withoutFinished id messages targets) } := by
  simp only [Statement.exec, bind_eq_ok, rows_eq_ok, ht, Option.some.injEq] at h
  obtain ⟨targets, rfl, h⟩ := h
  rw [withoutFinished]
  split at h
  · rename_i hany
    rw [pure_eq_ok] at h
    rw [if_pos hany, ← hm, h]
  · rename_i hany
    simp only [bind_eq_ok, rows_eq_ok, hm, Option.some.injEq, pure_eq_ok] at h
    obtain ⟨messages, rfl, rfl⟩ := h
    rw [if_neg hany, ← ht]

/-- A transaction succeeds when all its statements do. -/
theorem transaction_eq_ok {fails : Nat → Bool} {db db' : Database} {statements : List Statement}
    (h : transaction fails db statements = (.ok (), db')) :
    runStatements fails 0 db statements = .ok db' := by
  rw [transaction] at h
  split at h
  · rename_i db₁ hrun
    rw [hrun, (Prod.mk.inj h).2]
  · simp at h

/-- A transaction that fails changes nothing. -/
theorem transaction_eq_error {fails : Nat → Bool} {db db' : Database}
    {statements : List Statement} {fault : StoreFault}
    (h : transaction fails db statements = (.error fault, db')) : db' = db := by
  rw [transaction] at h
  split at h
  · simp at h
  · exact (Prod.mk.inj h).2.symm

/-! ### Writing -/

/-- Rows that are all inserted stand at the end of the table. -/
theorem runStatements_inserts {fails : Nat → Bool} {rows : List TargetRow} {rest : List Statement}
    {n : Nat} {db db' : Database} {targets : List TargetRow} (ht : db.targets = some targets)
    (h : runStatements fails n db (rows.map .insertTarget ++ rest) = .ok db') :
    runStatements fails (n + rows.length) { db with targets := some (targets ++ rows) } rest =
      .ok db' := by
  -- each row that is inserted makes the table longer for the next one
  induction rows generalizing n db targets with
  | nil => simpa [← ht] using h
  | cons row rows ih =>
    obtain ⟨next, hrow, h⟩ := runStatements_cons_eq_ok h
    obtain ⟨table, htable, -, rfl⟩ := exec_insertTarget hrow
    obtain rfl : table = targets := Option.some.inj (htable.symm.trans ht)
    have hrest := ih rfl h
    rwa [List.append_assoc, List.singleton_append, Nat.add_assoc, Nat.add_comm 1] at hrest

/-- The database after a message was written for peers of different URIs. -/
def written (m : Message) (distinct : List Instance) (messages : List MessageRow)
    (targets : List TargetRow) (db : Database) : Database :=
  { db with
    messages := some (upsert (.ofMessage m) messages)
    targets := some (targets.filter (·.messageId ≠ m.id) ++ targetRows m.id 0 distinct) }

theorem runStatements_write {fails : Nat → Bool} {n : Nat} {db db' : Database} {m : Message}
    {distinct : List Instance}
    (h : runStatements fails n db (writeStatements m distinct) = .ok db') :
    ∃ messages targets, db.messages = some messages ∧ db.targets = some targets ∧
      db' = written m distinct messages targets db := by
  obtain ⟨db₁, h₁, h⟩ := runStatements_cons_eq_ok h
  obtain ⟨messages, hm, rfl⟩ := exec_putMessage h₁
  obtain ⟨db₂, h₂, h⟩ := runStatements_cons_eq_ok h
  obtain ⟨targets, ht, rfl⟩ := exec_clearTargets h₂
  obtain ⟨db₃, h₃, h⟩ := runStatements_cons_eq_ok (runStatements_inserts rfl h)
  cases h₃
  cases h
  exact ⟨messages, targets, hm, ht, rfl⟩

/-- What a write that succeeds leaves behind, and what it answers. -/
theorem write_eq_ok {fails : Nat → Bool} {db db' : Database} {m : Message} {l : List Instance}
    {r : Record} (h : write db m l fails = (.ok r, db')) :
    r = ⟨m, distinctByUri l⟩ ∧ ∃ messages targets, db.messages = some messages ∧
      db.targets = some targets ∧ db' = written m (distinctByUri l) messages targets db := by
  rw [write] at h
  split at h
  · simp at h
  · split at h
    · rename_i db₁ htransaction
      obtain ⟨hr, rfl⟩ := Prod.mk.inj h
      exact ⟨(Except.ok.inj hr).symm, runStatements_write (transaction_eq_ok htransaction)⟩
    · simp at h

/-- A write that fails changes nothing. -/
theorem write_eq_error {fails : Nat → Bool} {db db' : Database} {m : Message} {l : List Instance}
    {fault : StoreFault} (h : write db m l fails = (.error fault, db')) : db' = db := by
  rw [write] at h
  split at h
  · exact (Prod.mk.inj h).2.symm
  · split at h
    · simp at h
    · rename_i fault' db₁ htransaction
      rw [← (Prod.mk.inj h).2, transaction_eq_error htransaction]

/-! ### Removing -/

/-- The database after a peer was taken off a message. -/
def removed (id uri : String) (messages : List MessageRow) (targets : List TargetRow)
    (db : Database) : Database :=
  let left := targets.filter fun r ↦ ¬ (r.messageId = id ∧ r.uri = .text uri)
  { db with messages := some (withoutFinished id messages left), targets := some left }

/-- What a removal that succeeds leaves behind. -/
theorem remove_eq_ok {fails : Nat → Bool} {db db' : Database} {id uri : String}
    (h : remove db id uri fails = (.ok (), db')) :
    ∃ messages targets, db.messages = some messages ∧ db.targets = some targets ∧
      db' = removed id uri messages targets db := by
  obtain ⟨db₁, h₁, h⟩ := runStatements_cons_eq_ok (transaction_eq_ok h)
  obtain ⟨messages, targets, hm, ht, rfl⟩ := exec_deleteTarget h₁
  obtain ⟨db₂, h₂, h⟩ := runStatements_cons_eq_ok h
  obtain rfl := exec_countTargets h₂
  obtain ⟨db₃, h₃, h⟩ := runStatements_cons_eq_ok h
  obtain rfl := exec_deleteFinished (by exact hm) rfl h₃
  obtain ⟨db₄, h₄, h⟩ := runStatements_cons_eq_ok h
  cases h₄
  cases h
  exact ⟨messages, targets, hm, ht, rfl⟩

/-- A removal that fails changes nothing. -/
theorem remove_eq_error {fails : Nat → Bool} {db db' : Database} {id uri : String}
    {fault : StoreFault} (h : remove db id uri fails = (.error fault, db')) : db' = db :=
  transaction_eq_error h

/-! ### The rows of a write -/

theorem map_targetRows (id : String) (position : Nat) (l : List Instance) :
    (targetRows id position l).map (fun row ↦ (row.messageId, row.uri)) =
      l.map fun i ↦ (id, .text i.uri) := by
  induction l generalizing position with
  | nil => rfl
  | cons i rest ih => rw [targetRows, List.map_cons, List.map_cons, ih]

theorem messageId_of_mem_targetRows {id : String} {position : Nat} {l : List Instance}
    {row : TargetRow} (h : row ∈ targetRows id position l) : row.messageId = id := by
  have hkey := List.mem_map_of_mem (f := fun row : TargetRow ↦ (row.messageId, row.uri)) h
  rw [map_targetRows] at hkey
  obtain ⟨i, -, hi⟩ := List.mem_map.1 hkey
  exact (congrArg Prod.fst hi).symm

/-- The rows of peers with different URIs differ in their keys. -/
theorem keys_targetRows_nodup (id : String) (position : Nat) {l : List Instance}
    (h : (l.map (·.uri)).Nodup) :
    ((targetRows id position l).map fun row ↦ (row.messageId, row.uri)).Nodup := by
  have hkeys : (l.map fun i ↦ (id, Cell.text i.uri)) =
      (l.map (·.uri)).map fun uri ↦ (id, Cell.text uri) := by
    rw [List.map_map]
    rfl
  rw [map_targetRows, hkeys]
  exact h.map fun _ _ heq ↦ Cell.text.inj (Prod.mk.inj heq).2

theorem mem_upsert_self (row : MessageRow) (table : List MessageRow) : row ∈ upsert row table := by
  rw [upsert]
  split
  · rename_i hany
    obtain ⟨r, hr, hid⟩ := List.any_eq_true.1 hany
    exact List.mem_map.2 ⟨r, hr, if_pos (of_decide_eq_true hid)⟩
  · exact List.mem_append_right _ List.mem_cons_self

/-! ### Operations that succeed -/

section Tables

variable {db : Database} {messages : List MessageRow} {targets : List TargetRow}

/-- While the engine does not fail, a statement that can be run is followed by the rest. -/
theorem runStatements_cons_of_exec {n : Nat} {next : Database} {s : Statement}
    {rest : List Statement} (h : s.exec db = .ok next) :
    runStatements (fun _ ↦ false) n db (s :: rest) =
      runStatements (fun _ ↦ false) (n + 1) next rest := by
  rw [runStatements, h]
  rfl

/-- Rows of stored messages that differ in their keys from one another and from the rows that are
there can all be inserted. -/
theorem runStatements_inserts_of_new {rows : List TargetRow} {rest : List Statement} {n : Nat}
    (hm : db.messages = some messages) (ht : db.targets = some targets)
    (hknown : ∀ row ∈ rows, messages.any (·.id = .text row.messageId) = true)
    (hnew : ∀ row ∈ rows, ∀ r ∈ targets, ¬ (r.messageId = row.messageId ∧ r.uri = row.uri))
    (hdistinct : (rows.map fun row ↦ (row.messageId, row.uri)).Nodup) :
    runStatements (fun _ ↦ false) n db (rows.map .insertTarget ++ rest) =
      runStatements (fun _ ↦ false) (n + rows.length)
        { db with targets := some (targets ++ rows) } rest := by
  induction rows generalizing n db targets with
  | nil => simp [← ht]
  | cons row rows ih =>
    obtain ⟨hrow, hrows⟩ := List.nodup_cons.1 hdistinct
    have hinsert : (Statement.insertTarget row).exec db =
        .ok { db with targets := some (targets ++ [row]) } := by
      simp only [Statement.exec, ht, hm, Store.rows, ok_bind]
      rw [if_pos ⟨hknown row List.mem_cons_self, by simpa using hnew row List.mem_cons_self⟩]
      rfl
    rw [List.map_cons, List.cons_append, runStatements_cons_of_exec hinsert,
      ih (by exact hm) rfl fun r hr ↦ hknown r (List.mem_cons_of_mem _ hr)]
    · rw [List.append_assoc, List.singleton_append, List.length_cons, Nat.add_assoc,
        Nat.add_comm 1]
    · intro row' hrow' r hr
      rcases List.mem_append.1 hr with hr | hr
      · exact hnew row' (List.mem_cons_of_mem _ hrow') r hr
      · rw [List.mem_singleton.1 hr]
        rintro ⟨hid, huri⟩
        exact hrow (List.mem_map.2 ⟨row', hrow', Prod.ext hid.symm huri.symm⟩)
    · exact hrows

/-- A write for at least one peer succeeds. -/
theorem write_of_tables {m : Message} {l : List Instance} (hm : db.messages = some messages)
    (ht : db.targets = some targets) (hl : l ≠ []) :
    write db m l =
      (.ok ⟨m, distinctByUri l⟩, written m (distinctByUri l) messages targets db) := by
  have hput : (Statement.putMessage (.ofMessage m)).exec db =
      .ok { db with messages := some (upsert (.ofMessage m) messages) } := by
    rw [Statement.exec, hm]
    rfl
  have hclear : (Statement.clearTargets m.id).exec
      { db with messages := some (upsert (.ofMessage m) messages) } =
        .ok { db with
          messages := some (upsert (.ofMessage m) messages)
          targets := some (targets.filter (·.messageId ≠ m.id)) } := by
    simp only [Statement.exec, ht]
    rfl
  have hrun : runStatements (fun _ ↦ false) 0 db (writeStatements m (distinctByUri l)) =
      .ok (written m (distinctByUri l) messages targets db) := by
    rw [writeStatements, runStatements_cons_of_exec hput, runStatements_cons_of_exec hclear,
      runStatements_inserts_of_new rfl rfl ?_ ?_ 
        (keys_targetRows_nodup m.id 0 (uris_distinctByUri_nodup l))]
    · rfl
    · intro row hrow
      rw [messageId_of_mem_targetRows hrow]
      exact List.any_eq_true.2 ⟨_, mem_upsert_self (.ofMessage m) messages, decide_eq_true rfl⟩
    · -- what is left of the table are the rows of other messages
      rintro row hrow r hr ⟨hid, -⟩
      rw [messageId_of_mem_targetRows hrow] at hid
      exact of_decide_eq_true (List.mem_filter.1 hr).2 hid
  rw [write]
  split
  · rename_i hnil
    exact absurd hnil (distinctByUri_ne_nil hl)
  · rw [transaction, hrun]

theorem exec_deleteFinished_of_tables (id : String) (hm : db.messages = some messages)
    (ht : db.targets = some targets) : (Statement.deleteFinished id).exec db =
      .ok { db with messages := some (withoutFinished id messages targets) } := by
  simp only [Statement.exec, hm, ht, rows, ok_bind, withoutFinished]
  split
  · rw [← hm, ← ht]
    rfl
  · rw [← ht]
    rfl

/-- A removal succeeds. -/
theorem remove_of_tables (id uri : String) (hm : db.messages = some messages)
    (ht : db.targets = some targets) :
    remove db id uri = (.ok (), removed id uri messages targets db) := by
  have hdelete : (Statement.deleteTarget id uri).exec db = .ok { db with
      targets := some (targets.filter fun r ↦ ¬ (r.messageId = id ∧ r.uri = .text uri)) } := by
    simp only [Statement.exec, ht, hm]
    rfl
  rw [remove, transaction, removeStatements, runStatements_cons_of_exec hdelete,
    runStatements_cons_of_exec rfl,
    runStatements_cons_of_exec (exec_deleteFinished_of_tables id (by exact hm) rfl)]
  rfl

end Tables

end PeerRelay.Store
