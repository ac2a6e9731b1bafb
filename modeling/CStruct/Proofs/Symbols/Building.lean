import CStruct.Symbol.Table
import Mathlib.Data.List.Basic

/-!
# Building symbol tables

A table is built up by steps, each about one spelling. What the steps come to for a spelling depends
on the steps about that spelling only: its binding power is the largest of all, and each of its
denotations that of the last step that sets it.
-/

namespace CStruct.SymbolTable

/-- A step by which a table is built up. -/
inductive Step where
  | symbol (id : String) (power : Nat)
  | leftAssoc (id : String) (power : Nat)
  | rightAssoc (id : String) (power : Nat)
  | prefixed (id : String)
  | statement (id : String) (std : StatementDenotation)
  deriving DecidableEq

namespace Step

/-- The spelling that the step is about. -/
def id : Step → String
  | symbol id _ | leftAssoc id _ | rightAssoc id _ | prefixed id | statement id _ => id

/-- How tightly the spelling binds after the step at least. -/
def power : Step → Nat
  | symbol _ power | leftAssoc _ power | rightAssoc _ power => power
  | prefixed _ | statement _ _ => 0

/-- What the step makes the spelling do between two operands. -/
def led? : Step → Option LeftDenotation
  | leftAssoc _ _ => some .leftAssoc
  | rightAssoc _ _ => some .rightAssoc
  | symbol _ _ | prefixed _ | statement _ _ => none

/-- What the step makes the spelling do at the start of a statement. -/
def std? : Step → Option StatementDenotation
  | statement _ std => some std
  | symbol _ _ | leftAssoc _ _ | rightAssoc _ _ | prefixed _ => none

/-- Whether the step makes the spelling a prefix operator. -/
def isPrefixed : Step → Bool
  | prefixed _ => true
  | symbol _ _ | leftAssoc _ _ | rightAssoc _ _ | statement _ _ => false

/-- What the step makes of the role of its spelling. -/
def extend (s : Step) (r : Role) : Role where
  bindingPower := max r.bindingPower s.power
  nud := if s.isPrefixed then some .prefixed else r.nud
  led := s.led?.or r.led
  std := s.std?.or r.std

end Step

/-- The table after a step. -/
def apply (t : SymbolTable) : Step → SymbolTable
  | .symbol id power => t.symbol id power
  | .leftAssoc id power => t.leftAssoc id power
  | .rightAssoc id power => t.rightAssoc id power
  | .prefixed id => t.prefixed id
  | .statement id std => t.statement id std

/-- The table after all the steps, from left to right. -/
def build (t : SymbolTable) (steps : List Step) : SymbolTable := steps.foldl apply t

/-! ## One step -/

/-- A step changes the role of its own spelling only, and puts the spelling into the table. -/
theorem find?_apply (t : SymbolTable) (s : Step) (id : String) : (t.apply s).find? id =
    if id = s.id then some { t.entry id with role := s.extend (t.entry id).role }
    else t.find? id := by
  by_cases h : id = s.id
  · subst h
    cases s <;> simp [apply, symbol, leftAssoc, rightAssoc, prefixed, statement, modify, Step.id,
      Step.extend, Step.power, Step.led?, Step.std?, Step.isPrefixed]
  · rw [if_neg h]
    cases s <;>
      simp_all [apply, symbol, leftAssoc, rightAssoc, prefixed, statement, modify, Step.id]

theorem entry_apply (t : SymbolTable) (s : Step) (id : String) : (t.apply s).entry id =
    if s.id = id then { t.entry id with role := s.extend (t.entry id).role } else t.entry id := by
  rw [entry, find?_apply]
  by_cases h : id = s.id
  · rw [if_pos h, if_pos h.symm, Option.getD_some]
  · rw [if_neg h, if_neg (Ne.symm h), entry]

/-! ## All steps -/

/-- The steps that are about one spelling. -/
def stepsFor (id : String) (steps : List Step) : List Step := steps.filter (·.id = id)

theorem stepsFor_cons (id : String) (s : Step) (steps : List Step) :
    stepsFor id (s :: steps) = if s.id = id then s :: stepsFor id steps else stepsFor id steps := by
  simp [stepsFor, List.filter_cons]

theorem stepsFor_append (id : String) (steps steps' : List Step) :
    stepsFor id (steps ++ steps') = stepsFor id steps ++ stepsFor id steps' :=
  List.filter_append steps steps'

/-- The steps about other spellings make no difference to a spelling, and those about it none but to
its role. -/
theorem find?_build (t : SymbolTable) (steps : List Step) (id : String) :
    (t.build steps).find? id = if (stepsFor id steps).isEmpty then t.find? id else
      some { t.entry id with
        role := (stepsFor id steps).foldl (fun r s => s.extend r) (t.entry id).role } := by
  induction steps generalizing t with
  | nil => rfl
  | cons s steps ih =>
    change ((t.apply s).build steps).find? id = _
    rw [ih, find?_apply, entry_apply, stepsFor_cons]
    by_cases h : id = s.id
    · rw [if_pos h, if_pos h.symm, if_pos h.symm, List.foldl_cons]
      -- the spelling is in the table from this step on
      cases hown : stepsFor id steps with
      | nil => rfl
      | cons s' own => rfl
    · rw [if_neg h, if_neg (Ne.symm h), if_neg (Ne.symm h)]

theorem entry_build (t : SymbolTable) (steps : List Step) (id : String) :
    (t.build steps).entry id = { t.entry id with
      role := (stepsFor id steps).foldl (fun r s => s.extend r) (t.entry id).role } := by
  rw [entry, find?_build]
  cases hown : stepsFor id steps with
  | nil => rfl
  | cons s own => rfl

theorem role_build (t : SymbolTable) (steps : List Step) (id : String) :
    ((t.build steps).entry id).role =
      (stepsFor id steps).foldl (fun r s => s.extend r) (t.entry id).role :=
  congrArg (·.role) (entry_build t steps id)

/-- Two steps in a row that are about different spellings can be swapped. -/
theorem stepsFor_swap {a b : Step} (hne : a.id ≠ b.id) (id : String) (before behind : List Step) :
    stepsFor id (before ++ a :: b :: behind) = stepsFor id (before ++ b :: a :: behind) := by
  rw [stepsFor_append, stepsFor_append]
  congr 1
  rw [stepsFor_cons, stepsFor_cons, stepsFor_cons, stepsFor_cons]
  by_cases ha : a.id = id
  · have hb : ¬b.id = id := fun hb => hne (ha.trans hb.symm)
    rw [if_pos ha, if_neg hb, if_neg hb, if_pos ha]
  · rw [if_neg ha, if_neg ha]

/-! ## What the steps come to -/

/-- The role has the largest binding power of all. -/
theorem max?_power (r : Role) (steps : List Step) :
    (r.bindingPower :: steps.map Step.power).max? =
      some (steps.foldl (fun r s => s.extend r) r).bindingPower := by
  induction steps generalizing r with
  | nil => rfl
  | cons s steps ih =>
    rw [List.foldl_cons, ← ih, List.map_cons, List.max?_cons', List.max?_cons', List.foldl_cons]
    rfl

theorem max?_power_perm (r : Role) {steps steps' : List Step} (h : steps.Perm steps') :
    (r.bindingPower :: steps.map Step.power).max? =
      (r.bindingPower :: steps'.map Step.power).max? := by
  rw [List.max?_cons', List.max?_cons']
  congr 1
  apply (h.map Step.power).foldl_eq'
  intro x _ y _ n
  omega

/-- A denotation that some steps set is as the last of them says. -/
theorem foldl_last {α : Type} {get : Role → Option α} {set? : Step → Option α}
    (hextend : ∀ (s : Step) (r : Role), get (s.extend r) = (set? s).or (get r)) (r : Role)
    (steps : List Step) : get (steps.foldl (fun r s => s.extend r) r) =
      (steps.filterMap set?).getLast?.or (get r) := by
  induction steps generalizing r with
  | nil => rfl
  | cons s steps ih =>
    rw [List.foldl_cons, ih, hextend]
    cases h : set? s with
    | none => simp [h]
    | some a => simp [h, List.getLast?_cons]

theorem nud_foldl (r : Role) (steps : List Step) : (steps.foldl (fun r s => s.extend r) r).nud =
    if steps.any Step.isPrefixed then some .prefixed else r.nud := by
  induction steps generalizing r with
  | nil => rfl
  | cons s steps ih =>
    rw [List.foldl_cons, ih, List.any_cons]
    cases h : s.isPrefixed with
    | true => simp [Step.extend, h]
    | false => simp [Step.extend, h]

/-- After the steps, a spelling binds as tightly as the largest power of all, whatever the order of
the steps. It does between operands and at the start of a statement what the last step about that
says, and is a prefix operator if any step says so. All else is as before, how the entry is named and
spelled above all; an entry that is new is named and spelled like its key. A spelling that no step is
about stays as it is, and steps about different spellings commute. -/
theorem prototype_build (t : SymbolTable) (steps : List Step) (id : String) :
    let own := stepsFor id steps
    let before := t.entry id
    let after := (t.build steps).entry id
    (before.role.bindingPower :: own.map Step.power).max? = some after.role.bindingPower ∧
    (∀ steps', steps.Perm steps' →
      ((t.build steps').entry id).role.bindingPower = after.role.bindingPower) ∧
    after.role.led = (own.filterMap Step.led?).getLast?.or before.role.led ∧
    after.role.std = (own.filterMap Step.std?).getLast?.or before.role.std ∧
    after.role.nud = (if own.any Step.isPrefixed then some .prefixed else before.role.nud) ∧
    after.id = before.id ∧ after.value = before.value ∧
    after = { before with role := after.role } ∧
    (t.find? id = none → after.id = id ∧ after.value = id) ∧
    (t.build steps).find? id = (if own.isEmpty then t.find? id else some after) ∧
    ∀ a b first rest, a.id ≠ b.id → ∀ other,
      (t.build (first ++ a :: b :: rest)).find? other =
        (t.build (first ++ b :: a :: rest)).find? other := by
  intro own before after
  have hafter : after = { before with role := own.foldl (fun r s => s.extend r) before.role } :=
    entry_build t steps id
  have hrole : after.role = own.foldl (fun r s => s.extend r) before.role := role_build t steps id
  have hid : after.id = before.id := congrArg (·.id) hafter
  have hvalue : after.value = before.value := congrArg (·.value) hafter
  have hpower := max?_power before.role own
  rw [← hrole] at hpower hafter
  refine ⟨hpower, ?_, ?_, ?_, ?_, hid, hvalue, hafter, ?_, ?_, ?_⟩
  · intro steps' hperm
    have hown : own.Perm (stepsFor id steps') := hperm.filter _
    have hpower' := max?_power before.role (stepsFor id steps')
    rw [← max?_power_perm _ hown, hpower, ← role_build] at hpower'
    exact (Option.some.inj hpower').symm
  · rw [hrole]
    exact foldl_last (fun _ _ => rfl) _ own
  · rw [hrole]
    exact foldl_last (fun _ _ => rfl) _ own
  · rw [hrole]
    exact nud_foldl _ own
  · intro hnone
    have hbare : before = .ofId id := by
      show (t.find? id).getD (.ofId id) = _
      rw [hnone, Option.getD_none]
    rw [hid, hvalue, hbare]
    exact ⟨rfl, rfl⟩
  · rw [hafter, hrole]
    exact find?_build t steps id
  · intro a b first rest hne other
    rw [find?_build, find?_build, stepsFor_swap hne]

/-- An operator that is named again with a smaller power keeps its power, whether a step about
another spelling comes before or behind that. -/
theorem prototype_build_of_plus :
    let plus : Step := .leftAssoc "+" 50
    let minus : Step := .prefixed "-"
    let again : Step := .rightAssoc "+" 10
    [plus, minus, again].Perm [plus, again, minus] ∧ minus.id ≠ again.id ∧
    ((basic.build [plus, minus, again]).entry "+").role =
      { bindingPower := 50, led := some .rightAssoc } ∧
    ((basic.build [plus, minus, again]).entry "+").id = "+" ∧
    ((basic.build [plus, minus, again]).entry "+").value = "+" ∧
    ((basic.build [plus, again, minus]).entry "+").role.bindingPower = 50 ∧
    ∀ other, (basic.build [plus, minus, again]).find? other =
      (basic.build [plus, again, minus]).find? other := by
  intro plus minus again
  have hperm : [plus, minus, again].Perm [plus, again, minus] := by decide
  have hne : minus.id ≠ again.id := by decide
  obtain ⟨-, hpower, -, -, -, -, -, -, hnew, -, hswap⟩ :=
    prototype_build basic [plus, minus, again] "+"
  obtain ⟨hid, hvalue⟩ := hnew (by decide)
  refine ⟨hperm, hne, by decide +kernel, hid, hvalue, ?_, hswap minus again [plus] [] hne⟩
  rw [hpower [plus, again, minus] hperm]
  decide +kernel

end CStruct.SymbolTable
