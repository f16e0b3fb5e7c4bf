import PeerRelay.Proofs.Store.Operations

/-!
# Updates that happen as a whole or not at all

The statements of an update change the tables one by one. In a session (`Session`) they do so on a
draft, which the commit makes the stored tables. An update that breaks off leaves a draft behind
that is half done, and the session drops the draft, whatever has come of it.

That nothing is left of such an update rests on two facts. A statement other than the commit leaves
the stored tables alone (`Session.exec_draft`), hence so do any number of them, whether they succeed
or not (`Session.run_draft`). And the commit is the last statement of an update and the only one of
its kind (`Update.exists_body`). So a session does what `transaction` says, which keeps the database
aside and puts it back (`Session.perform_eq_transaction`).

That the engine drops a draft as it was asked to is assumed here.
-/

namespace PeerRelay.Store

/-! ### Statements one after the other -/

section Statements

variable {fails : Nat → Bool} {n : Nat} {db draft : Database} {fault : StoreFault}

theorem runStatements_append (before after : List Statement) :
    runStatements fails n db (before ++ after) =
      (runStatements fails n db before >>= fun draft ↦
        runStatements fails (n + before.length) draft after) := by
  induction before generalizing n db with
  | nil => rfl
  | cons s rest ih =>
    rw [List.cons_append, runStatements, runStatements]
    cases fails n with
    | true => rfl
    | false =>
      cases hexec : s.exec db with
      | error fault => rfl
      | ok next =>
        show runStatements fails (n + 1) next (rest ++ after) = _
        rw [ih, List.length_cons, Nat.add_assoc, Nat.add_comm 1]
        rfl

/-- Statements that succeed in spite of failures of the engine succeed without them. -/
theorem runStatements_of_fails {statements : List Statement}
    (h : runStatements fails n db statements = .ok draft) :
    runStatements (fun _ ↦ false) n db statements = .ok draft := by
  induction statements generalizing n db with
  | nil => exact h
  | cons s rest ih =>
    obtain ⟨next, hexec, hrest⟩ := runStatements_cons_eq_ok h
    rw [runStatements_cons_of_exec hexec, ih hrest]

/-- A statement fails, be it that the engine lets it or that it cannot be run. -/
def Statement.Fails (fails : Nat → Bool) (n : Nat) (db : Database) (s : Statement) : Prop :=
  fails n = true ∨ ∃ fault, s.exec db = .error fault

theorem runStatements_cons_eq_error {s : Statement} {rest : List Statement} :
    (∃ fault, runStatements fails n db (s :: rest) = .error fault) ↔
      s.Fails fails n db ∨ ∃ next, fails n = false ∧ s.exec db = .ok next ∧
        ∃ fault, runStatements fails (n + 1) next rest = .error fault := by
  rw [runStatements, Statement.Fails]
  cases fails n with
  | true => exact ⟨fun _ ↦ .inl (.inl rfl), fun _ ↦ ⟨_, rfl⟩⟩
  | false =>
    cases hexec : s.exec db with
    | error fault => exact ⟨fun _ ↦ .inl (.inr ⟨_, rfl⟩), fun _ ↦ ⟨_, rfl⟩⟩
    | ok next => simp [ok_bind]

/-- Statements fail as a whole when those up to one of them succeed and that one fails. -/
theorem runStatements_eq_error {statements : List Statement} :
    (∃ fault, runStatements fails n db statements = .error fault) ↔
      ∃ before s after draft, statements = before ++ s :: after ∧
        runStatements fails n db before = .ok draft ∧ s.Fails fails (n + before.length) draft := by
  constructor
  · intro h
    induction statements generalizing n db with
    | nil => simp [runStatements] at h
    | cons s rest ih =>
      rcases runStatements_cons_eq_error.1 h with hfails | ⟨next, hquiet, hexec, hrest⟩
      · exact ⟨[], s, rest, db, rfl, rfl, hfails⟩
      · obtain ⟨before, s', after, draft, rfl, hbefore, hfails⟩ := ih hrest
        refine ⟨s :: before, s', after, draft, rfl, ?_, ?_⟩
        · rw [runStatements, hquiet, hexec]
          exact hbefore
        · rwa [List.length_cons, Nat.add_comm before.length, ← Nat.add_assoc]
  · rintro ⟨before, s, after, draft, rfl, hbefore, hfails⟩
    rw [runStatements_append, hbefore]
    exact runStatements_cons_eq_error.2 (.inl hfails)

end Statements

/-! ### Sessions -/

/-- A connection to the engine. -/
structure Session where
  /-- What is stored. -/
  tables : Database
  /-- The tables as the transaction under way has changed them. -/
  draft : Option Database

namespace Session

/-- A session without a transaction. -/
def idle (db : Database) : Session := ⟨db, none⟩

/-- Begins a transaction. -/
def begin (c : Session) : Session := ⟨c.tables, some c.tables⟩

/-- Drops the transaction under way. -/
def rollBack (c : Session) : Session := ⟨c.tables, none⟩

/-- Runs a statement: on the draft of the transaction under way, else on what is stored. Only a
transaction can be committed. -/
def exec (c : Session) (s : Statement) : Except StoreFault Session :=
  match c.draft with
  | none => if s = .commit then .error .engine else return idle (← s.exec c.tables)
  | some draft => if s = .commit then return idle draft else return ⟨c.tables, ← s.exec draft⟩

/-- Runs statements up to the first that fails; what the session has come to by then is left. -/
def run (fails : Nat → Bool) (n : Nat) (c : Session) :
    List Statement → Except StoreFault Unit × Session
  | [] => (.ok (), c)
  | s :: rest =>
    if fails n then (.error .engine, c)
    else
      match c.exec s with
      | .ok next => next.run fails (n + 1) rest
      | .error fault => (.error fault, c)

/-- Runs statements in a transaction, and drops what is left of it in the end. -/
def perform (fails : Nat → Bool) (c : Session) (statements : List Statement) :
    Except StoreFault Unit × Session :=
  let ended := c.begin.run fails 0 statements
  (ended.1, ended.2.rollBack)

variable {fails : Nat → Bool} {n : Nat} {db draft : Database}

/-- A statement other than the commit changes the draft only. -/
theorem exec_draft {s : Statement} (hs : s ≠ .commit) :
    exec ⟨db, some draft⟩ s = (s.exec draft).map fun next ↦ ⟨db, some next⟩ := by
  rw [exec]
  simp only [if_neg hs]
  cases s.exec draft <;> rfl

/-- Statements without a commit leave the stored tables alone, whatever comes of them. -/
theorem run_draft (fails : Nat → Bool) (n : Nat) (db draft : Database)
    {statements : List Statement} (hstatements : .commit ∉ statements) :
    ∃ left, run fails n ⟨db, some draft⟩ statements =
        ((runStatements fails n draft statements).map fun _ ↦ (), ⟨db, some left⟩) ∧
      ∀ next, runStatements fails n draft statements = .ok next → left = next := by
  induction statements generalizing n draft with
  | nil => exact ⟨draft, rfl, fun next h ↦ Except.ok.inj h⟩
  | cons s rest ih =>
    obtain ⟨hs, hrest⟩ := List.ne_and_not_mem_of_not_mem_cons hstatements
    rw [run, runStatements, exec_draft hs.symm]
    cases fails n with
    | true => exact ⟨draft, rfl, fun next h ↦ by cases h⟩
    | false =>
      cases hexec : s.exec draft with
      | error fault => exact ⟨draft, rfl, fun next h ↦ by cases h⟩
      | ok next => exact ih (n + 1) next hrest

theorem run_append (c : Session) (before after : List Statement) :
    c.run fails n (before ++ after) = match c.run fails n before with
      | (.ok (), next) => next.run fails (n + before.length) after
      | (.error fault, left) => (.error fault, left) := by
  induction before generalizing n c with
  | nil => rfl
  | cons s rest ih =>
    rw [List.cons_append, run, run]
    cases fails n with
    | true => rfl
    | false =>
      cases hexec : c.exec s with
      | error fault => rfl
      | ok next =>
        show next.run fails (n + 1) (rest ++ after) = _
        rw [ih, List.length_cons, Nat.add_assoc, Nat.add_comm 1]
        rfl

/-- Statements that end with their only commit happen as a whole or not at all. -/
theorem perform_eq_transaction {body : List Statement} (hbody : .commit ∉ body) :
    (idle db).perform fails (body ++ [.commit]) =
      ((transaction fails db (body ++ [.commit])).1,
        idle (transaction fails db (body ++ [.commit])).2) := by
  obtain ⟨left, hrun, hleft⟩ := run_draft fails 0 db db hbody
  show (((begin (idle db)).run fails 0 (body ++ [.commit])).1,
    ((begin (idle db)).run fails 0 (body ++ [.commit])).2.rollBack) = _
  rw [run_append, begin, idle, hrun, transaction, runStatements_append]
  cases hbefore : runStatements fails 0 db body with
  | error fault => rfl
  | ok next =>
    rw [hleft next hbefore]
    simp only [Except.map, ok_bind, run, runStatements]
    cases fails (0 + body.length) <;> rfl

end Session

/-! ### Updates -/

/-- What changes the tables of the store. -/
inductive Update where
  | write (m : Message) (targets : List Instance)
  | remove (id uri : String)

namespace Update

/-- The statements of an update. A message without any peer to reach has none. -/
def statements : Update → Except StoreFault (List Statement)
  | write m targets =>
    match distinctByUri targets with
    | [] => .error (.noTarget m.id)
    | distinct => .ok (writeStatements m distinct)
  | remove id uri => .ok (removeStatements id uri)

/-- The operation of the store, without the record that a write answers. -/
def run (db : Database) (fails : Nat → Bool) : Update → Except StoreFault Unit × Database
  | write m targets =>
    let answered := Store.write db m targets fails
    (answered.1.map fun _ ↦ (), answered.2)
  | remove id uri => Store.remove db id uri fails

/-- The update has no statements, or one of them fails after those before it. -/
def BreaksOff (db : Database) (fails : Nat → Bool) (u : Update) : Prop :=
  (∃ fault, u.statements = .error fault) ∨
    ∃ before s after draft, u.statements = .ok (before ++ s :: after) ∧
      runStatements fails 0 db before = .ok draft ∧ s.Fails fails before.length draft

variable {db : Database} {fails : Nat → Bool} {u : Update} {l : List Statement}

/-- The statements of an update end with their only commit. -/
theorem exists_body (h : u.statements = .ok l) :
    ∃ body, l = body ++ [.commit] ∧ .commit ∉ body := by
  cases u with
  | write m targets =>
    rw [statements] at h
    split at h
    · cases h
    · obtain rfl := Except.ok.inj h
      refine ⟨.putMessage (.ofMessage m) :: .clearTargets m.id :: (targetRows m.id 0 _).map
        .insertTarget, rfl, ?_⟩
      simp
  | remove id uri =>
    obtain rfl := Except.ok.inj h
    exact ⟨[.deleteTarget id uri, .countTargets id, .deleteFinished id], rfl, by simp⟩

/-- The operation of the store performs the statements of the update, if it has any, as a
transaction. -/
theorem run_eq (u : Update) (db : Database) (fails : Nat → Bool) :
    u.run db fails = match u.statements with
      | .error fault => (.error fault, db)
      | .ok l => transaction fails db l := by
  cases u with
  | write m targets =>
    rw [run, Store.write, statements]
    cases distinctByUri targets with
    | nil => rfl
    | cons i rest =>
      dsimp only
      rcases transaction fails db (writeStatements m (i :: rest)) with ⟨fault | _, left⟩ <;> rfl
  | remove id uri => rfl

/-- An update fails when it breaks off. -/
theorem breaksOff_iff : u.BreaksOff db fails ↔ ∃ fault, (u.run db fails).1 = .error fault := by
  cases hstatements : u.statements with
  | error fault =>
    rw [run_eq, hstatements]
    exact ⟨fun _ ↦ ⟨fault, rfl⟩, fun _ ↦ .inl ⟨fault, hstatements⟩⟩
  | ok l =>
    have hfault : (∃ fault, (transaction fails db l).1 = .error fault) ↔
        ∃ fault, runStatements fails 0 db l = .error fault := by
      rw [transaction]
      cases runStatements fails 0 db l <;> simp
    rw [run_eq, BreaksOff, hstatements]
    dsimp only
    rw [hfault, runStatements_eq_error]
    simp only [reduceCtorEq, exists_false, false_or, Except.ok.injEq, Nat.zero_add]

/-- An update that succeeds in spite of failures of the engine does what it does without them. -/
theorem run_of_fails (h : (u.run db fails).1 = .ok ()) :
    u.run db (fun _ ↦ false) = u.run db fails := by
  rw [run_eq] at h
  rw [run_eq, run_eq]
  cases hstatements : u.statements with
  | error fault => rfl
  | ok l =>
    rw [hstatements] at h
    have hdone : transaction fails db l = (.ok (), (transaction fails db l).2) := Prod.ext h rfl
    dsimp only
    rw [hdone, transaction, runStatements_of_fails (transaction_eq_ok hdone)]

/-- An update needs both tables. -/
theorem run_eq_ok {left : Database} (h : u.run db fails = (.ok (), left)) :
    (∃ messages, db.messages = some messages) ∧ ∃ targets, db.targets = some targets := by
  cases u with
  | write m targets =>
    rw [run] at h
    rcases hwrite : Store.write db m targets fails with ⟨fault | record, left'⟩
    · rw [hwrite] at h
      cases h
    · obtain ⟨-, messages, table, hm, ht, -⟩ := write_eq_ok hwrite
      exact ⟨⟨messages, hm⟩, table, ht⟩
  | remove id uri =>
    obtain ⟨messages, table, hm, ht, -⟩ := remove_eq_ok h
    exact ⟨⟨messages, hm⟩, table, ht⟩

theorem run_of_missing (hmissing : db.messages = none ∨ db.targets = none) :
    ∃ fault, (u.run db fails).1 = .error fault := by
  cases hresult : (u.run db fails).1 with
  | error fault => exact ⟨fault, rfl⟩
  | ok _ =>
    obtain ⟨⟨messages, hm⟩, targets, ht⟩ := run_eq_ok (Prod.ext hresult rfl)
    rcases hmissing with hnone | hnone
    · rw [hm] at hnone
      cases hnone
    · rw [ht] at hnone
      cases hnone

/-- An update that fails changes nothing. -/
theorem run_eq_error {fault : StoreFault} {left : Database}
    (h : u.run db fails = (.error fault, left)) : left = db := by
  rw [run_eq] at h
  split at h
  · exact (Prod.mk.inj h).2.symm
  · exact transaction_eq_error h

end Update

/-- Makes an update. An update without statements does not touch the session. -/
def Session.update (c : Session) (fails : Nat → Bool) (u : Update) :
    Except StoreFault Unit × Session :=
  match u.statements with
  | .error fault => (.error fault, c)
  | .ok statements => c.perform fails statements

/-- A session does what the operation of the store says. -/
theorem Session.update_idle (db : Database) (fails : Nat → Bool) (u : Update) :
    (Session.idle db).update fails u = ((u.run db fails).1, .idle (u.run db fails).2) := by
  rw [Session.update, Update.run_eq]
  cases hstatements : u.statements with
  | error fault => rfl
  | ok l =>
    obtain ⟨body, rfl, hbody⟩ := Update.exists_body hstatements
    exact Session.perform_eq_transaction hbody

/-- While the last statement of an update is not through, what is stored is untouched. -/
theorem Session.tables_run_take {u : Update} {l : List Statement} (h : u.statements = .ok l)
    (db : Database) (fails : Nat → Bool) {k : Nat} (hk : k < l.length) :
    ((Session.idle db).begin.run fails 0 (l.take k)).2.tables = db := by
  obtain ⟨body, rfl, hbody⟩ := Update.exists_body h
  rw [List.length_append, List.length_singleton] at hk
  rw [List.take_append_of_le_length (by omega), begin]
  have htake : .commit ∉ body.take k := fun hmem ↦ hbody (List.mem_of_mem_take hmem)
  obtain ⟨left, hrun, -⟩ := run_draft fails 0 db db htake
  exact congrArg (·.2.tables) hrun

/-- **An update happens as a whole or not at all.** A session does what the operation of the store
says, for every state of the tables and for every choice of statements that the engine lets fail. If
the update fails, all tables are as before; and nothing of it was stored at any point before the
commit was through, so that this does not depend on which statement failed. It fails if and only if
it has no statements or one of them fails after those before it, and always does if a table is
missing. If it succeeds, it has done what it does when the engine lets nothing fail. -/
theorem update_all_or_nothing (db : Database) (fails : Nat → Bool) (u : Update) :
    ∃ result left, (Session.idle db).update fails u = (result, .idle left) ∧
      u.run db fails = (result, left) ∧
      ((∃ fault, result = .error fault) → left = db) ∧
      (∀ l k, u.statements = .ok l → k < l.length →
        ((Session.idle db).begin.run fails 0 (l.take k)).2.tables = db) ∧
      ((∃ fault, result = .error fault) ↔ u.BreaksOff db fails) ∧
      (db.messages = none ∨ db.targets = none → ∃ fault, result = .error fault) ∧
      (result = .ok () → u.run db (fun _ ↦ false) = (.ok (), left)) := by
  refine ⟨_, _, Session.update_idle db fails u, rfl, ?_,
    fun _ _ h hk ↦ Session.tables_run_take h db fails hk, Update.breaksOff_iff.symm,
    Update.run_of_missing, fun h ↦ ?_⟩
  · rintro ⟨fault, hfault⟩
    exact Update.run_eq_error (Prod.ext hfault rfl)
  · rw [Update.run_of_fails h]
    exact Prod.ext h rfl

/-- A stored message is written again for two other peers, the second of which is not taken: at that
point the draft has lost the old peer and has the first of the new ones. -/
theorem update_second_insert_fails :
    let a : Instance := ⟨"a", "http://a.local"⟩
    let b : Instance := ⟨"b", "http://b.local"⟩
    let c : Instance := ⟨"c", "http://c.local"⟩
    let db : Database :=
      { Database.fresh with
        messages := some [.ofMessage default], targets := some (targetRows "" 0 [a]) }
    let m : Message := { (default : Message) with payload := [1] }
    let u := Update.write m [b, c]
    (∃ l, u.statements = .ok l ∧
      ((Session.idle db).begin.run (· = 3) 0 l).2.draft.map (·.targets) =
        some (some (targetRows "" 0 [b]))) ∧
    ∃ fault, (Session.idle db).update (· = 3) u = (.error fault, .idle db) := by
  intro a b c db m u
  obtain ⟨result, left, hupdate, -, hleft, -, hfails, -⟩ := update_all_or_nothing db (· = 3) u
  have hbreaks : u.BreaksOff db (· = 3) :=
    .inr ⟨.putMessage (.ofMessage m) :: .clearTargets "" :: (targetRows "" 0 [b]).map .insertTarget,
      .insertTarget ⟨"", 1, .text c.uri, .text c.name⟩, [.commit], _, rfl, rfl, .inl rfl⟩
  obtain ⟨fault, rfl⟩ := hfails.2 hbreaks
  rw [hleft ⟨fault, rfl⟩] at hupdate
  exact ⟨⟨_, rfl, rfl⟩, fault, hupdate⟩

end PeerRelay.Store
