import CStruct.Proofs.Redundant.Inserted
import CStruct.Proofs.Parse.Views
import CStruct.Proofs.Statements.Braces

/-!
# The whole source

Where one statement follows the other outside all structs, a forward declaration may be put between
two of them, and before the first or after the last one. To the end of the source, the reading with
it tracks the one without.
-/

namespace CStruct.Parse

open SymbolTable State

variable {t : SymbolTable} {k : Nat} {n : String} {s s' s₁ e e' y y' : State} {x x' : Symbol}
  {name? name?' : Option SymbolId} {names names' : List SymbolId} {fuel fuel' : Nat}

/-! ## One statement after the other -/

theorem view_id (t : SymbolTable) : View t id where
  fuel_le _ := Nat.le_refl _
  token _ := rfl
  scope _ := rfl
  outer _ := rfl
  scopes _ := rfl
  symbol _ _ := rfl
  modifySymbol _ _ _ _ := rfl
  report _ _ _ := rfl
  bind _ _ _ := rfl
  openScope _ := rfl
  closeScope _ := rfl
  advance _ := rfl

/-- However much fuel there is, a statement is read in one way. -/
theorem statement_unique (h : statement t (bodyReader t fuel) s = some (name?, s₁))
    {s₂ : State} (h' : statement t (bodyReader t fuel') s = some (name?', s₂)) : s₁ = s₂ := by
  wlog hle : fuel ≤ fuel' generalizing fuel fuel' name? name?' s₁ s₂
  · exact (this h' h (Nat.le_of_not_le hle)).symm
  have hbody : View.MirrorsBody id (bodyReader t fuel) (bodyReader t fuel') := by
    intro s s' hread
    obtain ⟨names, h₁⟩ := bodyReader_cases hread
    obtain ⟨s₂, h₂, rfl⟩ := (view_id t).statements hle h₁
    exact ⟨s₂, Option.map_eq_some_iff.2 ⟨_, h₂, rfl⟩, rfl⟩
  obtain ⟨s₃, h₃, rfl⟩ := (view_id t).statement hbody h
  exact (congrArg Prod.snd (Option.some.inj (h₃.symm.trans h')) :)

/-- A statement leads from the first state to the second. -/
def Follows (t : SymbolTable) (s s₁ : State) : Prop :=
  s.atClose = false ∧ ∃ fuel name?, statement t (bodyReader t fuel) s = some (name?, s₁)

/-- A source without a remark is read to its end as one list of statements. -/
theorem statements_of_program (h : program t fuel s = some (names, e)) (hclean : e.Clean) :
    statements t s.fuel s = some (names, e) ∧ e.check endId = true := by
  obtain ⟨first, s₁, h₁, hcases⟩ := program_cases h
  rcases hcases with ⟨hend, rfl, rfl⟩ | ⟨-, rest, others, rfl, -, h₂⟩
  · exact ⟨h₁, hend⟩
  · -- a brace that closes nothing is remarked
    have hgrows := (grows_advance t _).trans (grows_program h₂)
    exact absurd (hgrows.clean hclean) (not_clean_report _ _ _)

/-- If the statements of a source come to its end, they are all of it. -/
theorem statements_of_end (h : program t fuel s = some (names, e))
    (hall : ∀ names e, statements t s.fuel s = some (names, e) → e.check endId = true) :
    statements t s.fuel s = some (names, e) := by
  obtain ⟨first, s₁, h₁, hcases⟩ := program_cases h
  rcases hcases with ⟨-, rfl, rfl⟩ | ⟨hother, -⟩
  · exact h₁
  · cases (hall first s₁ h₁).symm.trans hother

namespace State

/-! ## Outside all structs -/

theorem outside_ofSource (source : String) : (State.ofSource source).Outside := by
  obtain ⟨hs, hc⟩ := (consistent_ofLexemes (Lexicon.lexemes source).1
    (Lexicon.lexemes source).2.position).pass rfl (fun d _ hd => absurd rfl hd) cStructs
  exact ⟨poised_ofLexemes cStructs _ _, hs, hc, simple_ofSource source, scope_advance.1,
    scope_advance.2⟩

namespace Outside

variable (h : s.Outside)
include h

theorem not_end (hopen : s.atClose = false) : s.endSymbol? = none :=
  h.simple.endsAs.not_end (Bool.or_eq_false_iff.1 hopen).2

theorem course (hopen : s.atClose = false)
    (hread : Parse.statement cStructs (bodyReader cStructs fuel) s = some (name?, s₁)) :
    Course cStructs s s₁ :=
  course_statement stops_cStructs h.toPoised (h.not_end hopen)
    (fun _ _ => course_bodyReader stops_cStructs) hread

theorem statement (hopen : s.atClose = false)
    (hread : Parse.statement cStructs (bodyReader cStructs fuel) s = some (name?, s₁)) :
    s₁.Outside := by
  have htrace : Trace cStructs s s₁ := .of_statement (fun _ _ => Trace.of_bodyReader) hread
  have hbrings := brings_statement h.steady h.consistent (h.not_end hopen)
    (bringsBody_bodyReader cStructs fuel) hread
  exact ⟨((h.course hopen hread).proceeds stops_cStructs h.toPoised).poised, hbrings.steady,
    hbrings.consistent, h.simple.trace htrace, hbrings.scope.trans h.scope,
    hbrings.outer.trans h.outer⟩

theorem follows (hfollows : Relation.ReflTransGen (Follows cStructs) s s₁) :
    s₁.Outside ∧ Trace cStructs s s₁ ∧ Run cStructs s s₁ := by
  induction hfollows with
  | refl => exact ⟨h, .refl s, .refl s⟩
  | tail _ hstep ih =>
    obtain ⟨houtside, htrace, hrun⟩ := ih
    obtain ⟨hopen, fuel, name?, hread⟩ := hstep
    exact ⟨houtside.statement hopen hread,
      htrace.trans (.of_statement (fun _ _ => Trace.of_bodyReader) hread),
      hrun.trans ((houtside.course hopen hread).run stops_cStructs houtside.toPoised)⟩

/-- Where the source goes on without a remark, a struct is next, an operand or the end. -/
theorem goesOn (hread : Parse.statements cStructs fuel s = some (names, e)) (hclean : e.Clean)
    (hend : e.endSymbol? ≠ none) : s.GoesOn := by
  rcases statements_cases hread with
    ⟨-, -, rfl⟩ | ⟨hopen, rest, name?, s₁, others, -, -, hfirst, hrest⟩
  · exact .inr (.inr hend)
  · have hclean₁ := (grows_statements hrest).clean hclean
    cases hstd : s.current.role.std with
    | none =>
      rw [Parse.statement, hstd] at hfirst
      obtain ⟨s₂, h₂, h₃⟩ := Option.map_eq_some_iff.1 hfirst
      cases h₃
      obtain ⟨⟨top, s₃⟩, h₃, rfl⟩ := Option.map_eq_some_iff.1 h₂
      have hclean₃ : s₃.Clean := by
        dsimp only at hclean₁
        split at hclean₁
        · exact hclean₁
        · exact absurd hclean₁ (not_clean_report _ _ _)
      obtain ⟨m, s₄, -, hnull, hoperators⟩ := expression_cases h₃
      have hclean₄ := ((grows_expression_operators cStructs m).2 _ _ _ _ _ hoperators).clean hclean₃
      have hcurrent : (s.advance cStructs).symbol s.token = s.current :=
        symbol_advance h.steady.token_lt
      -- what is no operand is reported, and no spelling of C is a prefix operator
      rcases nullDenotation_cases hnull with ⟨hnud, -⟩ | ⟨hprefixed, -⟩ | ⟨-, heq⟩
      · rw [hcurrent] at hnud
        exact .inr (.inl hnud)
      · rw [hcurrent] at hprefixed
        exact absurd hprefixed (h.simple.nud s.token)
      · rw [heq] at hclean₄
        exact absurd hclean₄ (not_clean_report _ _ _)
    | some std =>
      cases std with
      | struct => exact .inl hstd
      | member => exact absurd hstd (h.std_ne_member hfirst hclean₁)

end Outside

/-! ## Putting in a forward declaration -/

section Putting

variable (hget : cStructs.get? n = none)
include hget

/-- The statements from the one on that was put in are read in both readings. -/
theorem Crosses.statements (h : Crosses k n y y' x x' s s') (hs : s.Outside)
    (hread : Parse.statements cStructs fuel s = some (names, e))
    (hread' : Parse.statements cStructs fuel' s' = some (names', e')) (hno : NoAlias n e)
    (hclean : e.Clean) : Abreast k n e e' := by
  rcases statements_cases hread' with
    ⟨hclose, -⟩ | ⟨-, rest, name?, s₁', others, -, -, hput, hrest⟩
  · rw [h.atClose] at hclose
    cases hclose
  · have habreast := h.inserted hget hput
    refine habreast.statements hget hread hrest (fun _ => ⟨hs.toPoised, hno⟩) (fun hsize => ?_)
      hclean
    have hlt : k < s.symbols.size := by
      rw [h.takes.size, h.size]
      exact Nat.lt_succ_self k
    cases habreast.phase with
    | before _ _ hk _ _ _ => omega
    | after _ hput _ _ => omega

/-- What is put in between two statements makes no difference to what follows. -/
theorem Abreast.follows (h : Abreast k n s s') (hs : s.Outside) (hs' : s'.Outside)
    {u : State} (hfollows : Relation.ReflTransGen (Follows cStructs) s u) (hu : u.token = k)
    (hle : s.symbols.size ≤ k)
    (hread : Parse.statements cStructs fuel s = some (names, e))
    (hread' : Parse.statements cStructs fuel' s' = some (names', e')) (hno : NoAlias n e)
    (hend : e.endSymbol? ≠ none) (hclean : e.Clean) : Abreast k n e e' := by
  -- on the statements up to the place, from the first one on
  induction hfollows using Relation.ReflTransGen.head_induction_on generalizing s' fuel fuel' names
    names' with
  | refl =>
    rw [h.newest, hu] at hle
    exact absurd hle (Nat.not_succ_le_self k)
  | @head s s₁ hstep hrest ih =>
    obtain ⟨hopen, fuel₁, name₁?, hfirst⟩ := hstep
    rcases statements_cases hread with
      ⟨hclose, -⟩ | ⟨-, rest, name?, s₂, others, -, -, h₂, hread⟩
    · rw [hopen] at hclose
      cases hclose
    rcases statements_cases hread' with
      ⟨hclose', -⟩ | ⟨hopen', rest', name?', s₁', others', -, -, hfirst', hread'⟩
    · rw [h.atClose, hopen] at hclose'
      cases hclose'
    obtain rfl := statement_unique h₂ hfirst
    have hs₁ := hs.statement hopen h₂
    have hs₁' := hs'.statement hopen' hfirst'
    have hclean₁ := (grows_statements hread).clean hclean
    have hrun := (course_statements stops_cStructs hs₁.toPoised hread).run stops_cStructs
      hs₁.toPoised
    have hno₁ : NoAlias n s₂ := hno.of_run hrun hs₁.toPoised
      (hs₁.consistent.nested.open_lt _ List.mem_cons_self)
    obtain ⟨hu', htrace, -⟩ := hs₁.follows hrest
    have hsize : s₂.symbols.size ≤ k + 1 := by
      rw [← hu, ← hu'.steady.size]
      exact htrace.spares.size_le
    -- either the place comes later, or what was put in stands behind this statement
    rcases Nat.lt_or_eq_of_le hsize with hlt | heq
    · have hle₁ : s₂.symbols.size ≤ k := Nat.le_of_lt_succ hlt
      have habreast := h.statement hget (fun _ _ _ _ hscope h => h.bodyReader hget hscope) hopen h₂
        hfirst' (fun _ => hno₁) (fun _ => hle₁) hclean₁
      exact ih habreast hs₁ hs₁' hle₁ hread hread'
    · obtain ⟨y, y', x, x', hcrosses⟩ := h.crosses_statement hget hs hopen h₂ hfirst'
        hno₁ heq hclean₁ hs' (hs₁.goesOn hread hclean hend)
      exact hcrosses.statements hget hs₁ hread hread' hno hclean

end Putting

/-- Before anything has been read, no name stands for anything. -/
theorem get?_ofLexemes (lexemes : List Lexeme) (stop : Position) (c : ScopeId) (name : String) :
    ((State.ofLexemes lexemes stop).scopeAt c).get? name = none := by
  rw [scopeAt_ofLexemes]
  rfl

theorem sameEntry_ofLexemes (lexemes lexemes' : List Lexeme) (stop stop' : Position) (c : ScopeId)
    (name : String) :
    SameEntry k (.ofLexemes lexemes stop) (.ofLexemes lexemes' stop') c name where
  entry := by
    rw [get?_ofLexemes, get?_ofLexemes]
    rfl
  matching := fun id hid => by
    rw [get?_ofLexemes] at hid
    cases hid

/-- Before anything has been read, the second reading tracks the first. -/
theorem tracks_ofLexemes {lexemes lexemes' before behind : List Lexeme} {stop stop' : Position}
    (h : (State.ofLexemes lexemes stop).ahead = before ++ behind)
    (h' : (State.ofLexemes lexemes' stop').ahead = before ++ (forwardLexemes n ++ behind)) :
    Tracks before.length n (.ofLexemes lexemes stop) (.ofLexemes lexemes' stop') where
  phase := .before h h' (Nat.zero_add _) rfl rfl rfl
  clean := rfl
  scope := rfl
  outer := rfl
  scopes := rfl
  scope_lt := Nat.zero_lt_one
  chain := ⟨[], rfl, List.not_mem_nil⟩
  sensible :=
    { bound := fun c name id hid => by
        rw [get?_ofLexemes] at hid
        cases hid
      typical := nofun }
  similar := nofun
  order := fun c _ => by
    rw [scopeAt_ofLexemes, scopeAt_ofLexemes]
    rfl
  same := fun c name _ => sameEntry_ofLexemes _ _ _ _ c name
  keywords :=
    { left := fun id hid => by
        rw [get?_ofLexemes] at hid
        cases hid
      right := fun id hid => by
        rw [get?_ofLexemes] at hid
        cases hid
      isSome := fun hsome => by
        rw [get?_ofLexemes] at hsome
        cases hsome }
  own := .inl ⟨sameEntry_ofLexemes _ _ _ _ 0 n, fun id hid => by
    rw [get?_ofLexemes] at hid
    cases hid⟩

/-- The end of a source has been read where it is the token. -/
theorem endSymbol?_of_check {source : String} (hcourse : Course cStructs (.ofSource source) e)
    (hcheck : e.check endId = true) : e.endSymbol? ≠ none := by
  have hstart := (outside_ofSource source).toPoised
  have hchanges : Changes cStructs (.ofLexemes (Lexicon.lexemes source).1
      (Lexicon.lexemes source).2.position) e :=
    .trans (.single (.advance _))
      ((hcourse.run stops_cStructs hstart).changes hstart)
  have hone := hchanges.oneEnd .cStructs (oneEnd_ofLexemes
    (fun l hl => TranslationUnit.text_ne_end (Lexicon.isSpelled_of_mem_lexemes hl)) _)
  have hsound := (hcourse.proceeds stops_cStructs hstart).leads.sound
  intro hnone
  have hsome := (hone.of_check hsound hcheck).2.1
  rw [hnone] at hsome
  cases hsome

/-- A forward declaration that is put in behind `k` symbols, between two statements of a source
without a remark, leads to the same end. -/
theorem abreast_ofSource {source source' : String} {before behind : List Lexeme}
    (hget : cStructs.get? n = none)
    (hbare : (Lexicon.tokens source).map Lexeme.unplaced = before ++ behind)
    (hput : (Lexicon.tokens source').map Lexeme.unplaced =
      before ++ (forwardLexemes n ++ behind)) {u : State}
    (hfollows : Relation.ReflTransGen (Follows cStructs) (.ofSource source) u)
    (hu : u.token = before.length)
    (hread : program cStructs fuel (.ofSource source) = some (names, e))
    (hread' : program cStructs fuel' (.ofSource source') = some (names', e'))
    (hno : NoAlias n e) (hclean : e.Clean) : Abreast before.length n e e' := by
  have hs := outside_ofSource source
  have hs' := outside_ofSource source'
  obtain ⟨hall, hend⟩ := statements_of_program hread hclean
  have hended := endSymbol?_of_check (course_statements stops_cStructs hs.toPoised hall) hend
  have hcleanStart := (grows_statements hall).clean hclean
  have htracks : Tracks before.length n
      (.ofLexemes (Lexicon.lexemes source).1 (Lexicon.lexemes source).2.position)
      (.ofLexemes (Lexicon.lexemes source').1 (Lexicon.lexemes source').2.position) :=
    tracks_ofLexemes hbare hput
  -- it leads to the same end of the first statements
  have hfirst {names₁ : List SymbolId} {e₁ : State}
      (hread₁ : statements cStructs (State.ofSource source').fuel (.ofSource source') =
        some (names₁, e₁)) : Abreast before.length n e e₁ := by
    cases before with
    | nil =>
      obtain ⟨x, x', hcrosses⟩ := htracks.crosses rfl rfl rfl hcleanStart
      exact hcrosses.statements hget hs hall hread₁ hno hclean
    | cons l ls =>
      have hle : (State.ofSource source).symbols.size ≤ (l :: ls).length := by
        rw [hs.steady.size, State.ofSource, token_advance rfl]
        exact Nat.succ_le_succ (Nat.zero_le _)
      exact (htracks.next hget rfl (fun _ => hle) hcleanStart).follows hget hs hs' hfollows hu hle
        hall hread₁ hno hended hclean
  have hall' := statements_of_end hread' fun names₁ e₁ hread₁ => by
    rw [(hfirst hread₁).check]
    exact hend
  exact hfirst hall'

end State

end CStruct.Parse
