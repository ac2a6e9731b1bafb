import CStruct.Program
import CStruct.Proofs.Declared.Places

/-!
# Looking up structs

A program finds a struct by its name or its typedef name, the scope of the source finds the symbol
that a spelling stands for. Both find the same struct as long as no other name has taken the place
of a typedef name: a struct keeps its typedef name even then, and `Program.get?` looks at the
structs in their order.
-/

namespace CStruct

theorem forall₂_of_mapM {ε α β : Type} {f : α → Except ε β} {as : List α} {bs : List β}
    (h : as.mapM f = .ok bs) : List.Forall₂ (fun a b => f a = .ok b) as bs := by
  induction as generalizing bs with
  | nil =>
    cases h
    exact .nil
  | cons a as ih =>
    rw [List.mapM_cons] at h
    cases ha : f a with
    | error e =>
      rw [ha] at h
      cases h
    | ok b =>
      cases hrest : as.mapM f with
      | error e =>
        rw [ha, hrest] at h
        cases h
      | ok bs' =>
        rw [ha, hrest] at h
        cases h
        exact .cons ha (ih hrest)

namespace TranslationUnit

open SymbolTable Parse Parse.State

/-! ## What a struct is called -/

/-- The struct has this name or typedef name. -/
def IsCalled (u : TranslationUnit) (d : SymbolId) (name : String) : Prop :=
  (u.symbol d).value = name ∨ ∃ b, (u.symbol d).alias? = some b ∧ (u.symbol b).value = name

/-- No declared name but the struct itself has taken the place of a typedef name of this spelling
that a struct of the source has. -/
def TypedefsHeld (u : TranslationUnit) (name : String) : Prop :=
  ∀ d ∈ u.structs, ∀ b, (u.symbol d).alias? = some b → (u.symbol b).value = name →
    ∀ e, u.lookup? rootScope name = some e → e = b ∨ e = d

variable {u : TranslationUnit} {o : LayoutOptions} {d : SymbolId} {s : Struct} {name : String}

theorem struct_names (h : u.struct o d = .ok s) :
    s.name = (u.symbol d).value ∧
      s.alias? = (u.symbol d).alias?.map fun a => (u.symbol a).value := by
  unfold struct at h
  cases hfields : (u.members d).mapM (u.field o.dataModel) with
  | error e =>
    rw [hfields] at h
    cases h
  | ok fields =>
    rw [hfields] at h
    dsimp only [Bind.bind, Except.bind] at h
    cases hlayout : Layout.ofFields? o fields with
    | none =>
      rw [hlayout] at h
      cases h
    | some layout =>
      rw [hlayout] at h
      cases h
      exact ⟨rfl, rfl⟩

/-- A struct is found under what its symbol is called. -/
theorem isCalled_iff (h : u.struct o d = .ok s) :
    (s.name == name || s.alias? == some name) = true ↔ u.IsCalled d name := by
  obtain ⟨hname, halias⟩ := struct_names h
  rw [Bool.or_eq_true, beq_iff_eq, beq_iff_eq, hname, halias, Option.map_eq_some_iff]
  exact Iff.rfl

theorem not_isCalled_iff (h : u.struct o d = .ok s) :
    (s.name == name || s.alias? == some name) = false ↔ ¬u.IsCalled d name := by
  rw [← isCalled_iff h, Bool.not_eq_true]

section Finding

variable {ds : List SymbolId} {structs : List Struct}
  (h : List.Forall₂ (fun d s => u.struct o d = .ok s) ds structs)
include h

theorem find?_of_isCalled (hd : d ∈ ds) (hcalled : u.IsCalled d name)
    (honly : ∀ e ∈ ds, u.IsCalled e name → e = d) :
    ∃ s, u.struct o d = .ok s ∧
      structs.find? (fun s => s.name == name || s.alias? == some name) = some s := by
  induction h with
  | nil => cases hd
  | @cons e s ds structs hs _ ih =>
    by_cases he : u.IsCalled e name
    · cases honly e List.mem_cons_self he
      exact ⟨s, hs, List.find?_cons_of_pos ((isCalled_iff hs).2 he)⟩
    · have hne : d ≠ e := by
        rintro rfl
        exact he hcalled
      rw [List.find?_cons, (not_isCalled_iff hs).2 he]
      exact ih ((List.mem_cons.1 hd).resolve_left hne) fun e he =>
        honly e (List.mem_cons_of_mem _ he)

theorem find?_eq_none (hnone : ∀ e ∈ ds, ¬u.IsCalled e name) :
    structs.find? (fun s => s.name == name || s.alias? == some name) = none := by
  induction h with
  | nil => rfl
  | cons hs _ ih =>
    rw [List.find?_cons, (not_isCalled_iff hs).2 (hnone _ List.mem_cons_self)]
    exact ih fun e he => hnone e (List.mem_cons_of_mem _ he)

theorem exists_of_mem_structs (hs : s ∈ structs) : ∃ d ∈ ds, u.struct o d = .ok s := by
  induction h with
  | nil => cases hs
  | @cons d s' _ _ hs' _ ih =>
    rcases List.mem_cons.1 hs with rfl | hs
    · exact ⟨d, List.mem_cons_self, hs'⟩
    · obtain ⟨e, he, heq⟩ := ih hs
      exact ⟨e, List.mem_cons_of_mem _ he, heq⟩

end Finding

/-! ## What the scope of the source says of structs -/

section Structs

variable {source : String} (hd : d ∈ (ofSource source).structs)
include hd

/-- A struct of a source is what its name stands for. -/
theorem lookup?_of_mem_structs :
    (ofSource source).lookup? rootScope ((ofSource source).symbol d).value = some d := by
  have h := ofLexemes?_ofSource source
  obtain ⟨hmem, hentry, -⟩ := (mem_structs_iff h).1 hd
  rw [lookup?, hentry, Option.filter_some, if_pos ((mem_declarations_iff h).1 hmem).1]

theorem isAlias_of_mem_structs : ((ofSource source).symbol d).isAlias = false := by
  have h := ofLexemes?_ofSource source
  exact ((mem_declarations_iff h).1 ((mem_structs_iff h).1 hd).1).2.1

/-- The spelling of its typedef name stands for a declared name. -/
theorem lookup?_ne_none_of_alias? {b : SymbolId}
    (hb : ((ofSource source).symbol d).alias? = some b) :
    (ofSource source).lookup? rootScope ((ofSource source).symbol b).value ≠ none := by
  have h := ofLexemes?_ofSource source
  obtain ⟨-, -, -, hscope, -⟩ := alias_spec h hb
  rw [((mem_declarations_iff h).1 ((mem_structs_iff h).1 hd).1).2.2] at hscope
  intro hnone
  have hsome := isSome_lookup?_of_alias? hb hscope
  rw [hnone] at hsome
  cases hsome

end Structs

/-- A struct that is called like a spelling is the one that the spelling stands for. -/
theorem eq_of_isCalled {source : String} (hheld : (ofSource source).TypedefsHeld name)
    (hd : d ∈ (ofSource source).structs) (hcalled : (ofSource source).IsCalled d name)
    {e : SymbolId} (he : (ofSource source).lookup? rootScope name = some e) :
    e = d ∨ ((ofSource source).symbol d).alias? = some e := by
  rcases hcalled with rfl | ⟨b, hb, hname⟩
  · exact .inl (Option.some.inj (he.symm.trans (lookup?_of_mem_structs hd)))
  · rcases hheld d hd b hb hname e he with rfl | rfl
    · exact .inr hb
    · exact .inl rfl

end TranslationUnit

namespace Program

open TranslationUnit

/-- The structs of a program are those of the source, in their order. -/
theorem forall₂_structs {source : String} {o : LayoutOptions} {p : Program}
    (hp : ofSource source o = .ok p) :
    List.Forall₂ (fun d s => (TranslationUnit.ofSource source).struct o d = .ok s)
      (TranslationUnit.ofSource source).structs p.structs := by
  unfold ofSource at hp
  dsimp only at hp
  split at hp
  · unfold ofUnit at hp
    cases hstructs : (TranslationUnit.ofSource source).structs.mapM
        ((TranslationUnit.ofSource source).struct o) with
    | error e =>
      rw [hstructs] at hp
      cases hp
    | ok structs =>
      rw [hstructs] at hp
      cases hp
      exact forall₂_of_mapM hstructs
  · cases hp

/-- A program finds the struct that a spelling stands for in the scope of the source, under its name
or its typedef name, and it finds nothing under a spelling that stands for no declared name. It is
so unless another declared name has taken the place of a typedef name of that spelling. -/
theorem get?_ofSource {source : String} {o : LayoutOptions} {p : Program}
    (hp : ofSource source o = .ok p) (name : String)
    (hheld : (TranslationUnit.ofSource source).TypedefsHeld name) :
    let u := TranslationUnit.ofSource source
    (∀ d ∈ u.structs, u.lookup? rootScope name = some d →
      ∃ s, u.struct o d = .ok s ∧ p.get? name = some s) ∧
    (∀ d ∈ u.structs, ∀ b, (u.symbol d).alias? = some b → u.lookup? rootScope name = some b →
      ∃ s, u.struct o d = .ok s ∧ p.get? name = some s) ∧
    (u.lookup? rootScope name = none → p.get? name = none) ∧
    ∀ s ∈ p.structs, s.name = name → p.get? name = some s := by
  have hstructs := forall₂_structs hp
  have h := ofLexemes?_ofSource source
  have hvalue {e : SymbolId}
      (he : (TranslationUnit.ofSource source).lookup? rootScope name = some e) :
      ((TranslationUnit.ofSource source).symbol e).value = name :=
    (entry_spec h (Option.filter_eq_some_iff.1 he).1).2.1
  -- a typedef name is no struct
  have hne {d b : SymbolId} (hd : d ∈ (TranslationUnit.ofSource source).structs) {e : SymbolId}
      (hb : ((TranslationUnit.ofSource source).symbol e).alias? = some b) : b ≠ d := by
    rintro rfl
    exact absurd ((alias_spec h hb).2.1.symm.trans (isAlias_of_mem_structs hd)) nofun
  have hself : ∀ d ∈ (TranslationUnit.ofSource source).structs,
      (TranslationUnit.ofSource source).lookup? rootScope name = some d →
        ∃ s, (TranslationUnit.ofSource source).struct o d = .ok s ∧ p.get? name = some s := by
    intro d hd hlookup
    apply find?_of_isCalled hstructs hd (.inl (hvalue hlookup))
    intro e he hcalled
    rcases eq_of_isCalled hheld he hcalled hlookup with heq | halias
    · exact heq.symm
    · exact absurd rfl (hne hd halias)
  refine ⟨hself, fun d hd b hb hlookup => ?_, fun hnone => ?_, fun s hs hname => ?_⟩
  · apply find?_of_isCalled hstructs hd (.inr ⟨b, hb, hvalue hlookup⟩)
    intro e he hcalled
    rcases eq_of_isCalled hheld he hcalled hlookup with rfl | halias
    · exact absurd rfl (hne he hb)
    · exact (existsUnique_of_isAlias h (alias_spec h hb).2.1).unique halias hb
  · apply find?_eq_none hstructs
    rintro e he (rfl | ⟨b, hb, rfl⟩)
    · exact absurd (hnone.symm.trans (lookup?_of_mem_structs he)) nofun
    · exact lookup?_ne_none_of_alias? he hb hnone
  · obtain ⟨d, hd, hs⟩ := exists_of_mem_structs hstructs hs
    have hlookup := lookup?_of_mem_structs hd
    rw [← (struct_names hs).1, hname] at hlookup
    obtain ⟨s', hs', hget⟩ := hself d hd hlookup
    cases hs.symm.trans hs'
    exact hget

/-- A struct with a tag and a typedef name. -/
def typedefStruct : String := "typedef struct a \x7b int x; \x7d b;"

theorem get?_of_typedefStruct : ∃ p s, ofSource typedefStruct {} = .ok p ∧
    (TranslationUnit.ofSource typedefStruct).struct {} 2 = .ok s ∧ p.get? "b" = some s := by
  obtain ⟨hstructs, halias, hlookup, hok⟩ :
      (TranslationUnit.ofSource typedefStruct).structs = [2] ∧
      ((TranslationUnit.ofSource typedefStruct).symbol 2).alias? = some 8 ∧
      (TranslationUnit.ofSource typedefStruct).lookup? rootScope "b" = some 8 ∧
      (ofSource typedefStruct {}).toBool = true := by
    decide +kernel
  have hheld : (TranslationUnit.ofSource typedefStruct).TypedefsHeld "b" := by
    intro d hd b hb _ e he
    rw [hstructs, List.mem_singleton] at hd
    subst hd
    cases halias.symm.trans hb
    cases hlookup.symm.trans he
    exact .inl rfl
  cases hp : ofSource typedefStruct {} with
  | error e =>
    rw [hp] at hok
    cases hok
  | ok p =>
    have hd : 2 ∈ (TranslationUnit.ofSource typedefStruct).structs := by
      rw [hstructs]
      exact List.mem_cons_self
    obtain ⟨s, hs, hget⟩ := (get?_ofSource hp "b" hheld).2.1 2 hd 8 halias hlookup
    exact ⟨p, s, rfl, hs, hget⟩

/-- A struct takes the place of a typedef name, which is worth a warning. -/
def displacedTypedef : String := "typedef struct a \x7b int x; \x7d b; struct b \x7b char y; \x7d;"

/-- The struct that has taken the place of a typedef name is not found under its own name. -/
theorem get?_of_displacedTypedef : ∃ p, ofSource displacedTypedef {} = .ok p ∧
    11 ∈ (TranslationUnit.ofSource displacedTypedef).structs ∧
    (TranslationUnit.ofSource displacedTypedef).lookup? rootScope "b" = some 11 ∧
    ∀ s, (TranslationUnit.ofSource displacedTypedef).struct {} 11 = .ok s →
      p.get? "b" ≠ some s := by
  obtain ⟨hmem, hlookup, hname, hget⟩ :
      11 ∈ (TranslationUnit.ofSource displacedTypedef).structs ∧
      (TranslationUnit.ofSource displacedTypedef).lookup? rootScope "b" = some 11 ∧
      ((TranslationUnit.ofSource displacedTypedef).symbol 11).value = "b" ∧
      ((ofSource displacedTypedef {}).toOption.bind (·.get? "b")).map (·.name) = some "a" := by
    decide +kernel
  cases hp : ofSource displacedTypedef {} with
  | error e =>
    rw [hp] at hget
    cases hget
  | ok p =>
    refine ⟨p, rfl, hmem, hlookup, fun s hs hfound => ?_⟩
    rw [hp, show (Except.ok p : Except ModelError Program).toOption.bind (·.get? "b") =
      p.get? "b" from rfl, hfound, Option.map_some, (struct_names hs).1, hname] at hget
    exact absurd hget (by decide)

end Program

end CStruct
