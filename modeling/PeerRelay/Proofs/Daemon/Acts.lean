import PeerRelay.Daemon.Run
import PeerRelay.Proofs.Outcome

/-!
# Parts of a run that succeed

How a part of a run that succeeds is taken apart: one after the other where the first one leaves the
scene that the second one finds (`bind_succeeds`), down to the parts that only look at the scene or
change one thing about it. So an opened pipeline is one that starts over the store that was opened,
and the store that is kept is the one that stands at its path (`succeeds_of_openPipeline`,
`succeeds_of_keep`).
-/

namespace PeerRelay

/-! ### Files that were put somewhere -/

namespace Files

variable {f f' : Files} {path : String} {place : Place} {node : Node}

/-- A way leads to the same place as long as its directories stay. -/
theorem place?_of_directories
    (hstay : ∀ here, f.at? here = some .directory → f'.at? here = some .directory)
    {names : List String} {here : Place} (h : f.place? here names = some place) :
    f'.place? here names = some place := by
  induction names generalizing here with
  | nil => exact h
  | cons name rest ih =>
    rw [place?] at h ⊢
    split at h
    · rename_i hdirectory
      rw [if_pos (hstay here hdirectory)]
      exact ih h
    · contradiction

theorem at?_set_self (hroot : place ≠ []) : (f.set place node).at? place = some node := by
  rw [at?, if_neg (by simpa using hroot), set, List.lookup_cons_self]

theorem at?_set_of_ne {here : Place} (hne : here ≠ place) :
    (f.set place node).at? here = f.at? here := by
  have hkept : (f.nodes.filter (·.1 ≠ place)).lookup here = f.nodes.lookup here := by
    induction f.nodes with
    | nil => rfl
    | cons entry nodes ih =>
      obtain ⟨there, node'⟩ := entry
      by_cases hthere : there = place
      · subst hthere
        rw [List.filter_cons_of_neg (by simp), ih, List.lookup_cons, beq_false_of_ne hne]
      · rw [List.filter_cons_of_pos (by simpa using hthere), List.lookup_cons, List.lookup_cons, ih]
  rw [at?, at?, set, List.lookup_cons, beq_false_of_ne hne, hkept]

/-- What was put somewhere stands there. -/
theorem get?_of_put? (h : f.put? path node = some f') : f'.get? path = some node := by
  simp only [put?, Option.bind_eq_bind, Option.bind_eq_some_iff] at h
  obtain ⟨place, hplace, h⟩ := h
  split at h
  · cases h
  · rename_i hfree
    obtain rfl : f.set place node = f' := Option.some.inj h
    rw [not_or] at hfree
    have hroot : place ≠ [] := by
      rintro rfl
      exact hfree.1 rfl
    -- the place is no directory, so that none on the way to it has changed
    have hsame : (f.set place node).place? [] (names path) = some place := by
      refine place?_of_directories (fun here hdirectory ↦ ?_) hplace
      rw [at?_set_of_ne (by rintro rfl; exact hfree.1 hdirectory), hdirectory]
    rw [get?, hsame]
    exact at?_set_self hroot

end Files

namespace Daemon

open Settings Delivery

namespace Act

/-! ### Parts one after the other -/

/-- A part of a run succeeds with a result and leaves a scene. -/
def Succeeds {α : Type} (x : Act α) (t : Scene) (a : α) (t' : Scene) : Prop :=
  x.run.run t = (.ok a, t')

variable {α β : Type} {a : α} {b : β} {t t' : Scene}

theorem succeeds_iff {x : Act α} :
    x.Succeeds t a t' ↔ (x.run.run t).1.toOption = some a ∧ (x.run.run t).2 = t' := by
  rw [Succeeds]
  cases x.run.run t with
  | mk result t₁ =>
    constructor
    · rintro ⟨⟩
      exact ⟨rfl, rfl⟩
    · rintro ⟨hresult, rfl⟩
      cases result with
      | error fault => cases hresult
      | ok a' =>
        cases hresult
        rfl

theorem bind_succeeds {x : Act α} {f : α → Act β} :
    (x >>= f).Succeeds t b t' ↔ ∃ a t₁, x.Succeeds t a t₁ ∧ (f a).Succeeds t₁ b t' := by
  rw [Succeeds, run_bind]
  constructor
  · intro h
    split at h
    · rename_i a t₁ hx
      exact ⟨a, t₁, hx, h⟩
    · cases h
  · rintro ⟨a, t₁, hx, hf⟩
    rw [show x.run.run t = (.ok a, t₁) from hx]
    exact hf

theorem pure_succeeds {a' : α} : (pure a : Act α).Succeeds t a' t' ↔ a = a' ∧ t = t' := by
  rw [Succeeds]
  constructor
  · rintro ⟨⟩
    exact ⟨rfl, rfl⟩
  · rintro ⟨rfl, rfl⟩
    rfl

theorem not_throw_succeeds {fault : RunFault} : ¬ (throw fault : Act α).Succeeds t a t' := by
  intro h
  cases h

theorem get_succeeds {s : Scene} : (get : Act Scene).Succeeds t s t' ↔ t = s ∧ t = t' :=
  pure_succeeds

theorem modify_succeeds {f : Scene → Scene} {u : PUnit} :
    (modify f : Act PUnit).Succeeds t u t' ↔ f t = t' := by
  rw [Succeeds]
  constructor
  · rintro ⟨⟩
    rfl
  · rintro rfl
    rfl

theorem demand_succeeds {ε : Type} {fault : ε → RunFault} {r : Except ε α} :
    (demand fault r).Succeeds t a t' ↔ r = .ok a ∧ t = t' := by
  cases r with
  | error e => simp [demand, not_throw_succeeds]
  | ok a' => simp [demand, pure_succeeds]

theorem change_succeeds {f : Files → Option Files} {u : Unit} :
    (change f).Succeeds t u t' ↔ ∃ files, f t.files = some files ∧ { t with files } = t' := by
  rw [change, bind_succeeds]
  constructor
  · rintro ⟨s, t₁, hget, h⟩
    obtain ⟨rfl, rfl⟩ := get_succeeds.1 hget
    split at h
    · rename_i files hfiles
      exact ⟨files, hfiles, modify_succeeds.1 h⟩
    · exact absurd h not_throw_succeeds
  · rintro ⟨files, hfiles, rfl⟩
    refine ⟨t, t, get_succeeds.2 ⟨rfl, rfl⟩, ?_⟩
    rw [hfiles]
    exact modify_succeeds.2 rfl

theorem say_succeeds {line : String} {u : Unit} :
    (say line).Succeeds t u t' ↔ { t with output := t.output ++ line ++ "\n" } = t' :=
  modify_succeeds

end Act

/-! ### The database of a pipeline -/

variable {s : Surroundings} {config : Config} {paths : Paths} {t t' : Scene} {stage : Stage}

/-- What is kept stands at the path of the database. -/
theorem succeeds_of_keep {u : Unit} (h : (keep paths stage).Succeeds t u t') :
    t'.files.get? paths.database = some (.database stage.world.db) := by
  obtain ⟨files, hput, rfl⟩ := Act.change_succeeds.1 h
  exact Files.get?_of_put? hput

theorem succeeds_of_openStore {db : Store.Database} (h : (openStore paths).Succeeds t db t') :
    (Store.openAt t.files paths.database).1 = .ok db := by
  rw [openStore, Act.bind_succeeds] at h
  obtain ⟨_, t₁, hget, h⟩ := h
  obtain ⟨rfl, rfl⟩ := Act.get_succeeds.1 hget
  obtain ⟨_, t₂, -, h⟩ := Act.bind_succeeds.1 h
  obtain ⟨_, t₃, hdemand, h⟩ := Act.bind_succeeds.1 h
  obtain ⟨_, t₄, -, h⟩ := Act.bind_succeeds.1 h
  obtain ⟨rfl, -⟩ := Act.pure_succeeds.1 h
  exact (Act.demand_succeeds.1 hdemand).1

/-- An opened pipeline starts over the store at the path of the database, below the directories of
the instance. -/
theorem succeeds_of_openPipeline (h : (openPipeline s config paths).Succeeds t stage t') :
    ∃ files db, t.files.createAll? paths.base = some files ∧
      (Store.openAt files paths.database).1 = .ok db ∧
      stage = startPipeline config s.script db := by
  rw [openPipeline, Act.bind_succeeds] at h
  obtain ⟨_, t₁, hcreate, h⟩ := h
  obtain ⟨files, hfiles, rfl⟩ := Act.change_succeeds.1 hcreate
  obtain ⟨db, t₂, hdb, h⟩ := Act.bind_succeeds.1 h
  obtain ⟨_, t₃, -, h⟩ := Act.bind_succeeds.1 h
  obtain ⟨_, t₄, -, h⟩ := Act.bind_succeeds.1 h
  obtain ⟨rfl, -⟩ := Act.pure_succeeds.1 h
  exact ⟨files, db, hfiles, succeeds_of_openStore hdb, rfl⟩

end Daemon

end PeerRelay
