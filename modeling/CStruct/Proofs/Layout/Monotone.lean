import CStruct.Proofs.Layout.Lookup
import CStruct.Proofs.Layout.Placement

/-!
# Layouts under smaller options

Data models are ordered by the widths and alignments of their types, and packed members take no more
room than naturally aligned ones. A source that has a program under some options has one under all
smaller options: it has the same structs and members, and no member or struct is larger, or stands
further on. Rounding up is not monotone in the alignment as such (7 comes to 9 as a multiple of 3,
but to 8 as a multiple of 4). It is so here because smaller options make for alignments that divide
the larger ones. The main statement is `ofUnit_below`.
-/

namespace CStruct

/-! ## Smaller options -/

namespace DataModel

/-- The place of a data model in the order of the models, by what its types take. -/
def rank : DataModel → Nat
  | .ilp32 => 0
  | .llp64 => 1
  | .lp64 => 2

instance : LE DataModel := ⟨fun d e => d.rank ≤ e.rank⟩

instance (d e : DataModel) : Decidable (d ≤ e) := inferInstanceAs (Decidable (_ ≤ _))

end DataModel

namespace Packing

def rank : Packing → Nat
  | .packed => 0
  | .natural => 1

instance : LE Packing := ⟨fun p q => p.rank ≤ q.rank⟩

instance (p q : Packing) : Decidable (p ≤ q) := inferInstanceAs (Decidable (_ ≤ _))

end Packing

/-- Smaller options have both a smaller data model and a smaller packing, or the same. -/
instance : LE LayoutOptions := ⟨fun o o' => o.dataModel ≤ o'.dataModel ∧ o.packing ≤ o'.packing⟩

instance (o o' : LayoutOptions) : Decidable (o ≤ o') := inferInstanceAs (Decidable (_ ∧ _))

namespace PrimitiveType

variable {d e : DataModel}

theorem size_le_of_le (h : d ≤ e) (t : PrimitiveType) : t.size d ≤ t.size e := by
  revert h
  cases d <;> cases e <;> cases t <;> decide

theorem alignment_dvd_of_le (h : d ≤ e) (t : PrimitiveType) : t.alignment d ∣ t.alignment e := by
  revert h
  cases d <;> cases e <;> cases t <;> decide

end PrimitiveType

/-- A place that is rounded up to a divisor of an alignment is not behind one further on that is
rounded up to the alignment. -/
theorem alignUp_le_alignUp {n m a b : Nat} (ha : 0 < a) (hb : 0 < b) (hdvd : a ∣ b) (h : n ≤ m) :
    alignUp n a ≤ alignUp m b :=
  alignUp_le ha (Nat.dvd_trans hdvd (dvd_alignUp m b)) (Nat.le_trans h (le_alignUp m hb))

/-! ## Smaller layouts -/

/-- The same member, but possibly smaller. -/
structure Field.Below (f f' : Field) : Prop where
  same : { f with size := f'.size } = f'
  size : f.size ≤ f'.size

/-- The same member, but possibly smaller and further ahead. -/
structure Member.Below (m m' : Member) : Prop where
  field : m.toField.Below m'.toField
  offset : m.offset ≤ m'.offset

/-- The same members, but possibly smaller, further ahead and less strictly aligned. -/
structure Layout.Below (l l' : Layout) : Prop where
  members : List.Forall₂ Member.Below l.members l'.members
  size : l.size ≤ l'.size
  alignment : l.alignment ≤ l'.alignment

/-- The same struct, but with a possibly smaller layout. -/
structure Struct.Below (s s' : Struct) : Prop where
  same : { s with toLayout := s'.toLayout } = s'
  layout : s.toLayout.Below s'.toLayout

namespace Layout

variable {o o' : LayoutOptions} (h : o ≤ o') {fs fs' : List Field}
include h

theorem alignment_dvd_of_below {f f' : Field} (hf : f.Below f') :
    f.alignment o ∣ f'.alignment o' := by
  have htype := congrArg Field.type hf.same
  change f.type = f'.type at htype
  obtain ⟨hdata, hpacking⟩ := h
  unfold Field.alignment
  rw [htype]
  revert hpacking
  cases o.packing <;> cases o'.packing <;> intro hpacking
  · exact PrimitiveType.alignment_dvd_of_le hdata f'.type
  · exact absurd hpacking (by decide)
  · exact Nat.one_dvd _
  · exact Nat.one_dvd _

theorem strictest_le_of_below (hfs : List.Forall₂ Field.Below fs fs') :
    strictest o fs ≤ strictest o' fs' := by
  have hle (a a' : Nat) (ha : a ≤ a') : fs.foldl (fun a f => max a (f.alignment o)) a ≤
      fs'.foldl (fun a f => max a (f.alignment o')) a' := by
    induction hfs generalizing a a' with
    | nil => exact ha
    | @cons f f' fs fs' hf _ ih =>
      have hdvd := alignment_dvd_of_below h hf
      have halign := Nat.le_of_dvd (f'.alignment_pos o') hdvd
      apply ih
      show max a (f.alignment o) ≤ max a' (f'.alignment o')
      omega
  exact hle 1 1 (Nat.le_refl 1)

theorem strictest_dvd_of_below (hfs : List.Forall₂ Field.Below fs fs') :
    strictest o fs ∣ strictest o' fs' :=
  dvd_of_isPowerOfTwo (isPowerOfTwo_strictest o fs) (isPowerOfTwo_strictest o' fs')
    (strictest_le_of_below h hfs)

/-- Members that are placed from a place further ahead on stay ahead. The induction is on the
members: where one of them ends, the next ones are placed from. -/
theorem place_below (hfs : List.Forall₂ Field.Below fs fs') {offset offset' stop' : Nat}
    {ms' : List Member} (hoffset : offset ≤ offset')
    (hplace : place o' offset' fs' = some (ms', stop')) :
    ∃ ms stop, place o offset fs = some (ms, stop) ∧ List.Forall₂ Member.Below ms ms' ∧
      stop ≤ stop' := by
  induction hfs generalizing offset offset' ms' stop' with
  | nil =>
    cases hplace
    exact ⟨[], offset, rfl, .nil, hoffset⟩
  | @cons f f' fs fs' hf _ ih =>
    have hdvd := alignment_dvd_of_below h hf
    have hstart := alignUp_le_alignUp (f.alignment_pos o) (f'.alignment_pos o') hdvd hoffset
    have hsize := hf.size
    rw [place_cons] at hplace ⊢
    split at hplace
    · rename_i hlimit
      obtain ⟨⟨others', last'⟩, hrest', heq⟩ := Option.map_eq_some_iff.1 hplace
      cases heq
      obtain ⟨others, last, hrest, hothers, hlast⟩ := ih (Nat.add_le_add hstart hsize) hrest'
      have hlimit : alignUp offset (f.alignment o) + f.size < addressLimit := by omega
      rw [if_pos hlimit, hrest]
      exact ⟨_, last, rfl, .cons ⟨hf, hstart⟩ hothers, hlast⟩
    · cases hplace

/-- Smaller members under smaller options have a smaller layout. -/
theorem ofFields?_below (hfs : List.Forall₂ Field.Below fs fs') {l' : Layout}
    (hl : ofFields? o' fs' = some l') : ∃ l, ofFields? o fs = some l ∧ l.Below l' := by
  obtain ⟨⟨ms', stop'⟩, hplace', hrest⟩ := Option.bind_eq_some_iff.1 hl
  obtain ⟨size', hsize', heq⟩ := Option.bind_eq_some_iff.1 hrest
  obtain ⟨hlimit', rfl⟩ := fit_eq_some_iff.1 hsize'
  cases heq
  obtain ⟨ms, stop, hplace, hms, hstop⟩ := place_below h hfs (Nat.le_refl 0) hplace'
  have hsize : alignUp stop (strictest o fs) ≤ alignUp stop' (strictest o' fs') :=
    alignUp_le_alignUp (strictest_pos o fs) (strictest_pos o' fs')
      (strictest_dvd_of_below h hfs) hstop
  have hfit : fit (alignUp stop (strictest o fs)) = some (alignUp stop (strictest o fs)) :=
    fit_eq_some_iff.2 ⟨Nat.lt_of_le_of_lt hsize hlimit', rfl⟩
  unfold ofFields?
  rw [hplace]
  dsimp only [Option.bind_eq_bind, Option.bind_some]
  rw [hfit]
  exact ⟨_, rfl, hms, hsize, strictest_le_of_below h hfs⟩

end Layout

/-! ## Sources -/

/-- What holds of the elements of a list one by one holds of all of them in order. -/
theorem exists_mapM_of_mapM {ε α β : Type} {f g : α → Except ε β} {R : β → β → Prop}
    (hfg : ∀ a b', g a = .ok b' → ∃ b, f a = .ok b ∧ R b b') {as : List α} {bs' : List β}
    (h : as.mapM g = .ok bs') : ∃ bs, as.mapM f = .ok bs ∧ List.Forall₂ R bs bs' := by
  have hall := forall₂_of_mapM h
  clear h
  induction hall with
  | nil => exact ⟨[], rfl, .nil⟩
  | @cons a b' as bs' hb' _ ih =>
    obtain ⟨b, hb, hbelow⟩ := hfg a b' hb'
    obtain ⟨bs, hbs, hothers⟩ := ih
    refine ⟨b :: bs, ?_, .cons hbelow hothers⟩
    rw [List.mapM_cons, hb, hbs]
    rfl

namespace TranslationUnit

variable {u : TranslationUnit} {o o' : LayoutOptions}

theorem field_below {d d' : DataModel} (h : d ≤ d') (id : SymbolId) {f' : Field}
    (hf : u.field d' id = .ok f') : ∃ f, u.field d id = .ok f ∧ f.Below f' := by
  unfold field at hf ⊢
  cases htype : u.memberType id with
  | error e =>
    rw [htype] at hf
    cases hf
  | ok type =>
    cases hlength : u.memberLength? id with
    | error e =>
      rw [htype, hlength] at hf
      cases hf
    | ok length? =>
      rw [htype, hlength] at hf
      dsimp only [Bind.bind, Except.bind] at hf ⊢
      have hsize : type.size d * length?.getD 1 ≤ type.size d' * length?.getD 1 :=
        Nat.mul_le_mul_right _ (PrimitiveType.size_le_of_le h type)
      cases hfit : fit (type.size d' * length?.getD 1) with
      | none =>
        rw [hfit] at hf
        cases hf
      | some size' =>
        rw [hfit] at hf
        cases hf
        obtain ⟨hlimit, rfl⟩ := fit_eq_some_iff.1 hfit
        rw [fit_eq_some_iff.2 ⟨Nat.lt_of_le_of_lt hsize hlimit, rfl⟩]
        exact ⟨_, rfl, rfl, hsize⟩

theorem struct_below (h : o ≤ o') (id : SymbolId) {s' : Struct} (hs : u.struct o' id = .ok s') :
    ∃ s, u.struct o id = .ok s ∧ s.Below s' := by
  unfold struct at hs ⊢
  cases hfields' : (u.members id).mapM (u.field o'.dataModel) with
  | error e =>
    rw [hfields'] at hs
    cases hs
  | ok fs' =>
    rw [hfields'] at hs
    dsimp only [Bind.bind, Except.bind] at hs ⊢
    obtain ⟨fs, hfields, hbelow⟩ := exists_mapM_of_mapM (fun id _ => field_below h.1 id) hfields'
    rw [hfields]
    dsimp only
    cases hlayout' : Layout.ofFields? o' fs' with
    | none =>
      rw [hlayout'] at hs
      cases hs
    | some l' =>
      rw [hlayout'] at hs
      cases hs
      obtain ⟨l, hlayout, hl⟩ := Layout.ofFields?_below h hbelow hlayout'
      rw [hlayout]
      exact ⟨_, rfl, rfl, hl⟩

end TranslationUnit

namespace Program

/-- A translation unit that has a program under some options has one under all smaller options. It
has the same structs with the same members, and no size, offset or alignment is larger. -/
theorem ofUnit_below {u : TranslationUnit} {o o' : LayoutOptions} (h : o ≤ o') {p' : Program}
    (hp : ofUnit u o' = .ok p') :
    ∃ p, ofUnit u o = .ok p ∧ List.Forall₂ Struct.Below p.structs p'.structs := by
  unfold ofUnit at hp ⊢
  cases hstructs' : u.structs.mapM (u.struct o') with
  | error e =>
    rw [hstructs'] at hp
    cases hp
  | ok structs' =>
    rw [hstructs'] at hp
    cases hp
    obtain ⟨structs, hstructs, hbelow⟩ :=
      exists_mapM_of_mapM (fun id _ => TranslationUnit.struct_below h id) hstructs'
    rw [hstructs]
    exact ⟨⟨structs⟩, rfl, hbelow⟩

/-- A struct whose members take different room under every data model and packing. -/
def wideStruct : String := "struct wide \x7b char a; long b; double c; \x7d;"

theorem ofUnit_below_wideStruct :
    ({ dataModel := .ilp32, packing := .packed } : LayoutOptions) ≤ {} ∧
    ∃ p' p, ofUnit (TranslationUnit.ofSource wideStruct) {} = .ok p' ∧
      ofUnit (TranslationUnit.ofSource wideStruct) { dataModel := .ilp32, packing := .packed } =
        .ok p ∧
      List.Forall₂ Struct.Below p.structs p'.structs ∧ p'.structs.map (·.size) = [24] := by
  have hle : ({ dataModel := .ilp32, packing := .packed } : LayoutOptions) ≤ {} := by decide
  have hsizes : (ofUnit (TranslationUnit.ofSource wideStruct) {}).toOption.map
      (fun p => p.structs.map (·.size)) = some [24] := by
    decide +kernel
  cases hp : ofUnit (TranslationUnit.ofSource wideStruct) {} with
  | error e =>
    rw [hp] at hsizes
    cases hsizes
  | ok p' =>
    rw [hp] at hsizes
    obtain ⟨p, hp, hbelow⟩ := ofUnit_below hle hp
    exact ⟨hle, p', p, rfl, hp, hbelow, Option.some.inj hsizes⟩

end Program

end CStruct
