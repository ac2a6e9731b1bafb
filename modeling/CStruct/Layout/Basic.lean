import CStruct.Layout.Align
import CStruct.PrimitiveType
import CStruct.Text.Position

/-!
# Laying out members

The members of a struct are placed one after another, each at the first offset that its alignment
allows. Under natural packing that is the alignment of its type; packed members are not aligned. The
struct is as strictly aligned as its members, and its size is filled up to a multiple of that, so
that an array of structs keeps every member aligned. Offsets and sizes have to fit into the address
space: where one would not, there is no layout.
-/

namespace CStruct

/-! ## Options -/

/-- How close members are placed. -/
inductive Packing where
  | natural
  | packed
  deriving DecidableEq, Inhabited

/-- What a layout depends on. -/
structure LayoutOptions where
  dataModel : DataModel := .lp64
  packing : Packing := .natural
  deriving DecidableEq, Inhabited

/-- Addresses have 64 bits. -/
def addressLimit : Nat := 0x10000000000000000

/-- A number of bytes, if the address space has that many. -/
def fit (n : Nat) : Option Nat := if n < addressLimit then some n else none

@[simp] theorem fit_eq_some_iff {n m : Nat} : fit n = some m ↔ n < addressLimit ∧ n = m := by
  simp [fit]

@[simp] theorem fit_eq_none_iff {n : Nat} : fit n = none ↔ addressLimit ≤ n := by
  simp [fit]

/-! ## Members -/

/-- A member of a struct that has not been placed yet. -/
structure Field where
  name : String
  type : PrimitiveType
  /-- The number of elements of an array. -/
  arrayLength? : Option Nat := none
  /-- Where the name of the member stands. -/
  span : Span := {}
  description : String := ""
  /-- The size in bytes. -/
  size : Nat
  deriving DecidableEq

/-- A member of a struct, with its place in the struct. -/
structure Member extends Field where
  offset : Nat
  deriving DecidableEq

namespace Field

/-- The number of elements; something that is no array has one. -/
def length (f : Field) : Nat := f.arrayLength?.getD 1

/-- The type of the member, with its length if it is an array. -/
def typeName (f : Field) : String :=
  match f.arrayLength? with
  | some n => s!"{f.type}[{n}]"
  | none => toString f.type

/-- The number of bytes that the offset of a member has to be a multiple of. -/
def alignment (o : LayoutOptions) (f : Field) : Nat :=
  match o.packing with
  | .natural => f.type.alignment o.dataModel
  | .packed => 1

theorem alignment_pos (o : LayoutOptions) (f : Field) : 0 < f.alignment o := by
  unfold alignment
  split
  · exact PrimitiveType.alignment_pos ..
  · exact Nat.one_pos

end Field

/-- The offset behind the last byte of a member. -/
def Member.stop (m : Member) : Nat := m.offset + m.size

/-! ## Layouts -/

/-- Places members one after another from `offset` on. Answers the offset behind the last one as
well. -/
def place (o : LayoutOptions) (offset : Nat) : List Field → Option (List Member × Nat)
  | [] => some ([], offset)
  | f :: fs => do
    let start ← fit (alignUp offset (f.alignment o))
    let stop ← fit (start + f.size)
    let (members, stop) ← place o stop fs
    some ({ f with offset := start } :: members, stop)

/-- The strictest alignment among members; without members, any byte will do. -/
def strictest (o : LayoutOptions) (fs : List Field) : Nat :=
  fs.foldl (fun a f => max a (f.alignment o)) 1

/-- The places of the members of a struct, with its size and alignment. -/
structure Layout where
  members : List Member
  size : Nat
  alignment : Nat
  deriving DecidableEq

/-- Lays out the members of a struct, if they fit into the address space. -/
def Layout.ofFields? (o : LayoutOptions) (fs : List Field) : Option Layout := do
  let (members, stop) ← place o 0 fs
  let alignment := strictest o fs
  let size ← fit (alignUp stop alignment)
  some { members, size, alignment }

end CStruct
