import CStruct.Dictionary
import CStruct.PrimitiveType
import CStruct.Symbol.Basic

/-!
# Symbol tables

A `SymbolTable` has an entry for each spelling of a language, from which the symbols of that
spelling are made. It is built up step by step: naming a spelling again never weakens its binding,
and changes only what the step is about. An entry may also be edited in any way, so that it need not
be named like its spelling; those that steps alone have made are, and the table is `IsRegular` then.
The table `SymbolTable.cStructs` describes the struct declarations of C.
-/

namespace CStruct

/-- The symbols from which those of a language are made. -/
structure SymbolTable where
  entries : Dictionary Symbol := {}

namespace SymbolTable

/-! ## Looking up -/

/-- The end of the input. -/
def endId : String := "(end)"

/-- Names without a meaning of their own. -/
def nameId : String := "(name)"

/-- Literals. -/
def literalId : String := "(literal)"

/-- Types. -/
def typeId : String := "(type)"

/-- The entry for a spelling that the table has. -/
def find? (t : SymbolTable) (id : String) : Option Symbol := t.entries.get? id

/-- The entry for a spelling; one that the table does not have can do nothing. -/
def entry (t : SymbolTable) (id : String) : Symbol := (t.find? id).getD (.ofId id)

/-- What symbols take over from the entry for a spelling that the table has. -/
def get? (t : SymbolTable) (id : String) : Option Prototype := (t.find? id).map (·.toPrototype)

/-- What symbols take over for a spelling, whether the table has it or not. -/
def prototype (t : SymbolTable) (id : String) : Prototype := (t.get? id).getD { id }

/-! ## Building up -/

/-- The table with the entry for `id` changed by `f`. -/
def edit (t : SymbolTable) (id : String) (f : Symbol → Symbol) : SymbolTable :=
  ⟨t.entries.insert id (f (t.entry id))⟩

/-- The table with the role of `id` changed by `f`. -/
def modify (t : SymbolTable) (id : String) (f : Role → Role) : SymbolTable :=
  t.edit id fun x => { x with role := f x.role }

/-- Names a spelling, which then binds at least as tightly as `power`. -/
def symbol (t : SymbolTable) (id : String) (power : Nat) : SymbolTable :=
  t.modify id fun r => { r with bindingPower := max r.bindingPower power }

/-- Makes a spelling a binary operator that groups to the left. -/
def leftAssoc (t : SymbolTable) (id : String) (power : Nat) : SymbolTable :=
  (t.symbol id power).modify id fun r => { r with led := some .leftAssoc }

/-- Makes a spelling a binary operator that groups to the right. -/
def rightAssoc (t : SymbolTable) (id : String) (power : Nat) : SymbolTable :=
  (t.symbol id power).modify id fun r => { r with led := some .rightAssoc }

/-- Makes a spelling a prefix operator. -/
def prefixed (t : SymbolTable) (id : String) : SymbolTable :=
  (t.symbol id 0).modify id fun r => { r with nud := some .prefixed }

/-- Makes a spelling the keyword of a statement. -/
def statement (t : SymbolTable) (id : String) (std : StatementDenotation) : SymbolTable :=
  (t.symbol id 0).modify id fun r => { r with std := some std }

/-- Makes a spelling an operand. -/
def operand (t : SymbolTable) (id : String) : SymbolTable :=
  (t.symbol id 0).modify id fun r => { r with nud := some .itself }

/-- How tightly a prefix operator binds its operand. -/
def prefixPower : Nat := 70

/-! ## Tables -/

/-- The table that every language starts from: the end of the input, literals, types and names. -/
def basic : SymbolTable :=
  (((({} : SymbolTable).symbol endId 0).operand literalId).operand typeId).operand nameId

/-- What opens the body of a struct. -/
def openBrace : String := "\x7b"

/-- What closes the body of a struct. -/
def closeBrace : String := "\x7d"

/-- The operators of struct declarations. -/
def cOperators : List String := [",", ";", openBrace, closeBrace, "[", "]"]

/-- The table of struct declarations: every primitive type starts the declaration of members. -/
def cStructs : SymbolTable :=
  let t := cOperators.foldl (fun t id => t.symbol id 0) basic
  let t := PrimitiveType.all.foldl (fun t p => t.statement p.keyword .member) t
  t.statement "struct" .struct

/-! ## The view of a table -/

theorem prototype_eq (t : SymbolTable) (id : String) :
    t.prototype id = (t.entry id).toPrototype := by
  rw [prototype, entry, get?]
  cases t.find? id <;> rfl

@[simp] theorem find?_edit {t : SymbolTable} {id other : String} {f : Symbol → Symbol} :
    (t.edit id f).find? other = if other = id then some (f (t.entry id)) else t.find? other := by
  by_cases h : other = id <;> simp [edit, find?, h]

@[simp] theorem entry_edit {t : SymbolTable} {id other : String} {f : Symbol → Symbol} :
    (t.edit id f).entry other = if other = id then f (t.entry id) else t.entry other := by
  rw [entry, find?_edit]
  by_cases h : other = id <;> simp [entry, h]

@[simp] theorem prototype_modify {t : SymbolTable} {id other : String} {f : Role → Role} :
    (t.modify id f).prototype other =
      if other = id then { t.prototype id with role := f (t.prototype id).role }
      else t.prototype other := by
  rw [prototype_eq, modify, entry_edit]
  by_cases h : other = id <;> simp [prototype_eq, h]

/-! ## Regular tables -/

/-- Every entry is that of its spelling, and only its role may say something. -/
def IsRegular (t : SymbolTable) : Prop :=
  ∀ id, t.entry id = { Symbol.ofId id with role := (t.prototype id).role }

namespace IsRegular

variable {t : SymbolTable}

theorem empty : IsRegular {} := fun _ => rfl

theorem modify (h : t.IsRegular) (id : String) (f : Role → Role) : (t.modify id f).IsRegular := by
  intro other
  rw [prototype_modify, SymbolTable.modify, entry_edit]
  by_cases hid : other = id
  · rw [if_pos hid, if_pos hid, hid, h id]
  · rw [if_neg hid, if_neg hid, h other]

theorem symbol (h : t.IsRegular) (id : String) (power : Nat) : (t.symbol id power).IsRegular :=
  h.modify id _

theorem leftAssoc (h : t.IsRegular) (id : String) (power : Nat) :
    (t.leftAssoc id power).IsRegular :=
  (h.symbol id power).modify id _

theorem rightAssoc (h : t.IsRegular) (id : String) (power : Nat) :
    (t.rightAssoc id power).IsRegular :=
  (h.symbol id power).modify id _

theorem prefixed (h : t.IsRegular) (id : String) : (t.prefixed id).IsRegular :=
  (h.symbol id 0).modify id _

theorem statement (h : t.IsRegular) (id : String) (std : StatementDenotation) :
    (t.statement id std).IsRegular :=
  (h.symbol id 0).modify id _

theorem operand (h : t.IsRegular) (id : String) : (t.operand id).IsRegular :=
  (h.symbol id 0).modify id _

theorem basic : basic.IsRegular :=
  (((empty.symbol endId 0).operand literalId).operand typeId).operand nameId

theorem foldl {α : Type} (h : t.IsRegular) {step : SymbolTable → α → SymbolTable}
    (hstep : ∀ t a, t.IsRegular → (step t a).IsRegular) (as : List α) :
    (as.foldl step t).IsRegular := by
  induction as generalizing t with
  | nil => exact h
  | cons a as ih => exact ih (hstep t a h)

theorem cStructs : cStructs.IsRegular :=
  ((basic.foldl (fun _ id h => h.symbol id 0) cOperators).foldl
    (fun _ p h => h.statement p.keyword .member) PrimitiveType.all).statement "struct" .struct

theorem id (h : t.IsRegular) (id : String) : (t.prototype id).id = id := by
  rw [prototype_eq, h id]
  rfl

/-- What symbols take over is named like the spelling as well. -/
theorem id_get? (h : t.IsRegular) {id : String} {p : Prototype} (hp : t.get? id = some p) :
    p.id = id := by
  have hid := h.id id
  rwa [prototype, hp] at hid

end IsRegular

end SymbolTable

end CStruct
