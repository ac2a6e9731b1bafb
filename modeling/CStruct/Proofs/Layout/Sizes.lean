import CStruct.Program
import CStruct.Proofs.Layout.Words

/-!
# Sizes are exact or refused

The size of a member is the size of an element times the length, and the layout of a struct is what
it would be if addresses had no limit. Where a member or a struct would be too large for the address
space, it is refused by its name. The same comes out of a computation on words, in which nothing
wraps around and nothing is divided by zero. The main statement is `exact_or_refused`.
-/

namespace CStruct

/-- The type of a member and, if it is an array, its length. -/
structure Shape where
  type : PrimitiveType
  length? : Option Nat := none
  deriving DecidableEq

namespace Shape

/-- What a member takes of a struct, however much that is. -/
def extent (o : LayoutOptions) (s : Shape) : Extent where
  size := s.type.size o.dataModel * s.length?.getD 1
  alignment :=
    match o.packing with
    | .natural => s.type.alignment o.dataModel
    | .packed => 1

theorem alignment_extent_pos (o : LayoutOptions) (s : Shape) : 0 < (s.extent o).alignment := by
  unfold extent
  dsimp only
  split
  · exact PrimitiveType.alignment_pos ..
  · exact Nat.one_pos

theorem alignment_extent_le (o : LayoutOptions) (s : Shape) : (s.extent o).alignment ≤ 8 := by
  have hle (d : DataModel) (t : PrimitiveType) : t.alignment d ≤ 8 := by
    cases d <;> cases t <;> decide
  unfold extent
  dsimp only
  split
  · exact hle ..
  · decide

end Shape

/-! ## Members on words -/

namespace Word

/-- The size and the alignment of a member. -/
def extent (o : LayoutOptions) (s : Shape) : Except WordFault (UInt64 × UInt64) := do
  let size ← checkedMul (.ofNat (s.type.size o.dataModel)) (.ofNat (s.length?.getD 1))
  .ok (size, .ofNat (s.extent o).alignment)

/-- Works out the sizes of members, and lays them out. -/
def layoutShapes (o : LayoutOptions) (shapes : List Shape) : Except WordFault Layout := do
  layout (← shapes.mapM (extent o))

theorem toNat_ofNat {n : Nat} (h : n < addressLimit) : (UInt64.ofNat n).toNat = n :=
  UInt64.toNat_ofNat_of_lt' h

variable {o : LayoutOptions}

theorem exact_extent {s : Shape} (h : ∀ n ∈ s.length?, n < addressLimit) :
    Exact ((s.extent o).size < addressLimit) (Represents · (s.extent o)) (extent o s) := by
  have hlength : s.length?.getD 1 < addressLimit := by
    cases hn : s.length? with
    | none => decide
    | some n => exact h n hn
  have hsize : s.type.size o.dataModel < addressLimit := by
    have hle : s.type.size o.dataModel ≤ 8 := by
      cases s.type <;> cases o.dataModel <;> decide
    exact Nat.lt_of_le_of_lt hle (by decide)
  have halignment : (s.extent o).alignment < addressLimit :=
    Nat.lt_of_le_of_lt (s.alignment_extent_le o) (by decide)
  have hmul := exact_checkedMul (.ofNat (s.type.size o.dataModel)) (.ofNat (s.length?.getD 1))
  rw [toNat_ofNat hsize, toNat_ofNat hlength] at hmul
  exact hmul.bind id fun hfits size hw => .ok hfits ⟨hw, toNat_ofNat halignment⟩

theorem exact_mapM_extent {shapes : List Shape}
    (h : ∀ s ∈ shapes, ∀ n ∈ s.length?, n < addressLimit) :
    Exact (∀ s ∈ shapes, (s.extent o).size < addressLimit)
      (List.Forall₂ Represents · (shapes.map (Shape.extent o))) (shapes.mapM (extent o)) := by
  induction shapes with
  | nil => exact .ok nofun .nil
  | cons s shapes ih =>
    obtain ⟨hs, hrest⟩ := List.forall_mem_cons.1 h
    rw [List.mapM_cons]
    refine (exact_extent hs).bind (fun hfits => hfits s List.mem_cons_self) fun hfirst w hw => ?_
    have hothers := ih hrest
    refine hothers.bind (fun hfits s' hs' => hfits s' (List.mem_cons_of_mem s hs'))
      fun hfits ws hws => ?_
    exact .ok (List.forall_mem_cons.2 ⟨hfirst, hfits⟩) (.cons hw hws)

/-- If the struct fits into the address space, each of its members does. -/
theorem exact_layoutShapes {shapes : List Shape}
    (h : ∀ s ∈ shapes, ∀ n ∈ s.length?, n < addressLimit) :
    Exact (CStruct.Layout.exactSize (shapes.map (Shape.extent o)) < addressLimit)
      (fun l =>
        l.offsets.map UInt64.toNat =
          CStruct.Layout.exactOffsets 0 (shapes.map (Shape.extent o)) ∧
        l.size.toNat = CStruct.Layout.exactSize (shapes.map (Shape.extent o)) ∧
        l.alignment.toNat = CStruct.Layout.exactAlignment (shapes.map (Shape.extent o)))
      (layoutShapes o shapes) := by
  have hpos : ∀ e ∈ shapes.map (Shape.extent o), 0 < e.alignment :=
    List.forall_mem_map.2 fun s _ => s.alignment_extent_pos o
  refine (exact_mapM_extent h).bind (fun hfits s hs => ?_) fun _ ws hws => exact_layout hws hpos
  exact Nat.lt_of_le_of_lt (CStruct.Layout.size_le_exactSize hpos (List.mem_map_of_mem hs)) hfits

end Word

/-! ## Members and structs of a source -/

theorem bounds_of_readLength? {text : String} {n : Nat} (h : readLength? text = some n) :
    0 < n ∧ n < addressLimit := by
  obtain ⟨hbind, hpos⟩ := Option.filter_eq_some_iff.1 h
  obtain ⟨m, -, hfit⟩ := Option.bind_eq_some_iff.1 hbind
  obtain ⟨hlt, rfl⟩ := fit_eq_some_iff.1 hfit
  exact ⟨of_decide_eq_true hpos, hlt⟩

namespace TranslationUnit

open Layout

/-- The member was declared with this type and, as an array, with this length. -/
structure HasShape (u : TranslationUnit) (id : SymbolId) (s : Shape) : Prop where
  type : u.memberType id = .ok s.type
  length : u.memberLength? id = .ok s.length?

variable {u : TranslationUnit} {o : LayoutOptions} {id : SymbolId} {s : Shape}

theorem HasShape.bounds (h : u.HasShape id s) : ∀ n ∈ s.length?, 0 < n ∧ n < addressLimit := by
  intro n hn
  have hlength := h.length
  unfold memberLength? at hlength
  split at hlength
  · rw [← Except.ok.inj hlength] at hn
    cases hn
  · split at hlength
    · rename_i m hread
      rw [← Except.ok.inj hlength] at hn
      cases hn
      exact bounds_of_readLength? hread
    · cases hlength

/-- A member is as large as its elements are together, or it is refused. -/
theorem HasShape.field (h : u.HasShape id s) :
    if (s.extent o).size < addressLimit then
      ∃ f, u.field o.dataModel id = .ok f ∧ f.size = (s.extent o).size ∧ f.extent o = s.extent o
    else u.field o.dataModel id = .error (.layoutOverflow (u.symbol id).value) := by
  have hsize : s.type.size o.dataModel * s.length?.getD 1 = (s.extent o).size := rfl
  unfold TranslationUnit.field
  rw [h.type, h.length]
  dsimp only [bind, Except.bind]
  rw [hsize]
  by_cases hlt : (s.extent o).size < addressLimit
  · rw [if_pos hlt, fit_eq_some_iff.2 ⟨hlt, rfl⟩]
    exact ⟨_, rfl, rfl, rfl⟩
  · rw [if_neg hlt, fit_eq_none_iff.2 (Nat.le_of_not_lt hlt)]

theorem lengths_of_hasShape {ids : List SymbolId} {shapes : List Shape}
    (h : List.Forall₂ u.HasShape ids shapes) : ∀ s ∈ shapes, ∀ n ∈ s.length?, n < addressLimit := by
  induction h with
  | nil => nofun
  | cons hs _ ih => exact List.forall_mem_cons.2 ⟨fun n hn => (hs.bounds n hn).2, ih⟩

theorem mapM_field {ids : List SymbolId} {shapes : List Shape}
    (h : List.Forall₂ u.HasShape ids shapes)
    (hfits : ∀ s ∈ shapes, (s.extent o).size < addressLimit) :
    ∃ fs, ids.mapM (u.field o.dataModel) = .ok fs ∧
      fs.map (Field.extent o) = shapes.map (Shape.extent o) := by
  induction h with
  | nil => exact ⟨[], rfl, rfl⟩
  | @cons id s ids shapes hs _ ih =>
    obtain ⟨hfirst, hrest⟩ := List.forall_mem_cons.1 hfits
    have hfield := hs.field (o := o)
    rw [if_pos hfirst] at hfield
    obtain ⟨f, hf, -, hextent⟩ := hfield
    obtain ⟨fs, hfs, hextents⟩ := ih hrest
    refine ⟨f :: fs, ?_, ?_⟩
    · rw [List.mapM_cons, hf, hfs]
      rfl
    · rw [List.map_cons, List.map_cons, hextent, hextents]

/-- A struct is laid out as without a limit, or it is refused. -/
theorem struct_of_hasShape {d : SymbolId} {shapes : List Shape}
    (h : List.Forall₂ u.HasShape (u.members d) shapes)
    (hfits : ∀ s ∈ shapes, (s.extent o).size < addressLimit) :
    if exactSize (shapes.map (Shape.extent o)) < addressLimit then
      ∃ s, u.struct o d = .ok s ∧
        s.members.map (fun m => m.toField.extent o) = shapes.map (Shape.extent o) ∧
        s.members.map (·.offset) = exactOffsets 0 (shapes.map (Shape.extent o)) ∧
        s.alignment = exactAlignment (shapes.map (Shape.extent o)) ∧
        s.size = exactSize (shapes.map (Shape.extent o))
    else u.struct o d = .error (.layoutOverflow (u.symbol d).value) := by
  obtain ⟨fs, hfs, hextents⟩ := mapM_field h hfits
  unfold struct
  rw [hfs]
  dsimp only [Bind.bind, Except.bind]
  rcases ofFields?_cases o fs with ⟨l, hl, hfields, hsize, halignment, hlt⟩ | ⟨hnone, hle⟩
  · rw [hextents] at hsize hlt
    obtain ⟨-, -, stop, hplaced, -⟩ := placed_of_ofFields? hl
    have hmembers : l.members.map (fun m => m.toField.extent o) = shapes.map (Shape.extent o) := by
      rw [← hextents, ← hfields, List.map_map]
      rfl
    have hoffsets := hplaced.offsets_eq
    rw [hmembers] at hoffsets
    rw [if_pos hlt, hl]
    refine ⟨_, rfl, hmembers, hoffsets, ?_, hsize⟩
    show l.alignment = _
    rw [halignment, ← hextents, exactAlignment_map]
  · rw [hextents] at hle
    rw [if_neg (Nat.not_lt.2 hle), hnone]

/-- Members that were declared with these types and lengths, and the struct that they are members
of, under any options.
1. A member is as large as its elements are together if that is below the limit of addresses, and is
   refused otherwise. The same comes out on words.
2. If all members are sized, the struct is laid out as it is without a limit if its size is below
   the limit, and is refused otherwise.
3. On words, a struct is laid out as it is without a limit, or refused for an overflow: nothing
   wraps around, and nothing is divided by zero. -/
theorem exact_or_refused {d : SymbolId} {shapes : List Shape}
    (h : List.Forall₂ u.HasShape (u.members d) shapes) (o : LayoutOptions) :
    let exact := shapes.map (Shape.extent o)
    List.Forall₂ (fun id s =>
        if (s.extent o).size < addressLimit then
          (∃ f, u.field o.dataModel id = .ok f ∧ f.size = (s.extent o).size) ∧
          ∃ w, Word.extent o s = .ok w ∧ w.1.toNat = (s.extent o).size
        else
          u.field o.dataModel id = .error (.layoutOverflow (u.symbol id).value) ∧
          Word.extent o s = .error .overflow)
      (u.members d) shapes ∧
    ((∀ e ∈ exact, e.size < addressLimit) →
      if exactSize exact < addressLimit then
        ∃ s, u.struct o d = .ok s ∧ s.members.map (·.size) = exact.map (·.size) ∧
          s.members.map (·.offset) = exactOffsets 0 exact ∧ s.alignment = exactAlignment exact ∧
          s.size = exactSize exact
      else u.struct o d = .error (.layoutOverflow (u.symbol d).value)) ∧
    if exactSize exact < addressLimit then
      ∃ l, Word.layoutShapes o shapes = .ok l ∧
        l.offsets.map UInt64.toNat = exactOffsets 0 exact ∧
        l.alignment.toNat = exactAlignment exact ∧ l.size.toNat = exactSize exact
    else Word.layoutShapes o shapes = .error .overflow := by
  intro exact
  have hmembers : List.Forall₂ (fun id s =>
      if (s.extent o).size < addressLimit then
        (∃ f, u.field o.dataModel id = .ok f ∧ f.size = (s.extent o).size) ∧
        ∃ w, Word.extent o s = .ok w ∧ w.1.toNat = (s.extent o).size
      else
        u.field o.dataModel id = .error (.layoutOverflow (u.symbol id).value) ∧
        Word.extent o s = .error .overflow)
      (u.members d) shapes := by
    refine h.imp fun id s hs => ?_
    -- one member, by numbers and by words, on either side of the limit
    have hfield := hs.field (o := o)
    have hword := Word.exact_extent (o := o) fun n hn => (hs.bounds n hn).2
    by_cases hlt : (s.extent o).size < addressLimit
    · rw [if_pos hlt] at hfield ⊢
      obtain ⟨f, hf, hsize, -⟩ := hfield
      obtain ⟨w, hw, hrepresents, -⟩ := hword.1 hlt
      exact ⟨⟨f, hf, hsize⟩, w, hw, hrepresents⟩
    · rw [if_neg hlt] at hfield ⊢
      exact ⟨hfield, hword.2 hlt⟩
  have hwords := Word.exact_layoutShapes (o := o) (lengths_of_hasShape h)
  refine ⟨hmembers, fun hfits => ?_, ?_⟩
  · have hstruct := struct_of_hasShape h (List.forall_mem_map.1 hfits)
    by_cases hlt : exactSize exact < addressLimit
    · rw [if_pos hlt] at hstruct ⊢
      obtain ⟨s, hs, hextents, hoffsets, halignment, hsize⟩ := hstruct
      have hsizes : s.members.map (·.size) = exact.map (·.size) := by
        show s.members.map (·.size) = (shapes.map (Shape.extent o)).map (·.size)
        rw [← hextents, List.map_map]
        rfl
      exact ⟨s, hs, hsizes, hoffsets, halignment, hsize⟩
    · rw [if_neg hlt] at hstruct ⊢
      exact hstruct
  · by_cases hlt : exactSize exact < addressLimit
    · rw [if_pos hlt]
      obtain ⟨l, hl, hoffsets, hsize, halignment⟩ := hwords.1 hlt
      exact ⟨l, hl, hoffsets, halignment, hsize⟩
    · rw [if_neg hlt]
      exact hwords.2 hlt

/-- A member that fills the address space but for one byte, and one of two bytes. -/
def oversizedStruct : String := "struct a \x7b char x[18446744073709551615]; short y; \x7d;"

def oversizedShapes : List Shape := [⟨.char, some 18446744073709551615⟩, ⟨.short, none⟩]

/-- Both members have a size, but the struct is one byte too large even without padding. -/
theorem exact_or_refused_oversized :
    List.Forall₂ (ofSource oversizedStruct).HasShape ((ofSource oversizedStruct).members 1)
      oversizedShapes ∧
    (ofSource oversizedStruct).struct { packing := .packed } 1 = .error (.layoutOverflow "a") ∧
    Word.layoutShapes { packing := .packed } oversizedShapes = .error .overflow := by
  obtain ⟨hmembers, hname, hx, hxlength, hy, hylength⟩ :
      (ofSource oversizedStruct).members 1 = [4, 10] ∧
      ((ofSource oversizedStruct).symbol 1).value = "a" ∧
      (ofSource oversizedStruct).memberType 4 = .ok .char ∧
      (ofSource oversizedStruct).memberLength? 4 = .ok (some 18446744073709551615) ∧
      (ofSource oversizedStruct).memberType 10 = .ok .short ∧
      (ofSource oversizedStruct).memberLength? 10 = .ok none := by
    decide +kernel
  have h : List.Forall₂ (ofSource oversizedStruct).HasShape ((ofSource oversizedStruct).members 1)
      oversizedShapes := by
    rw [hmembers]
    exact .cons ⟨hx, hxlength⟩ (.cons ⟨hy, hylength⟩ .nil)
  obtain ⟨-, hstruct, hwords⟩ := exact_or_refused h { packing := .packed }
  have hlarge : ¬exactSize (oversizedShapes.map (Shape.extent { packing := .packed })) <
      addressLimit := by
    decide
  have hsized : ∀ e ∈ oversizedShapes.map (Shape.extent { packing := .packed }),
      e.size < addressLimit := by
    decide
  have hrefused := hstruct hsized
  rw [if_neg hlarge, hname] at hrefused
  rw [if_neg hlarge] at hwords
  exact ⟨h, hrefused, hwords⟩

end TranslationUnit

end CStruct
