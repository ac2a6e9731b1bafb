import CStruct.Proofs.Grammar.Acceptance
import CStruct.Proofs.Rendering.Structs
import CStruct.Proofs.Rendering.Tokens

/-!
# Reading undoes rendering

Whatever way struct declarations are written down, reading the text gives them back.
-/

namespace CStruct.Rendering

open SymbolTable Parse Parse.State

/-- A member of a translation unit that is what was written. -/
structure DescribesMember (u : TranslationUnit) (id : SymbolId) (m : WrittenMember) : Prop where
  name : named (u.symbol id) = (m.name.text, m.name.span)
  type : u.typeName? id = some m.type.keyword
  length : (u.symbol id).dimension?.map (fun n => (u.symbol n).value) = m.length?.map (·.text)

/-- A struct of a translation unit that is what was written. -/
structure Describes (u : TranslationUnit) (id : SymbolId) (d : WrittenStruct) : Prop where
  name : some (named (u.symbol id)) = d.goesBy?.map fun l => (l.text, l.span)
  typedefName : (u.symbol id).alias?.map (fun a => named (u.symbol a)) =
    d.alias?.map fun l => (l.text, l.span)
  members : List.Forall₂ (DescribesMember u) (u.members id) d.members

/-! ## From the state to the translation unit -/

section OfState

variable {names : List SymbolId} {s : State}

theorem isDeclaration_of_isKeyword {lo : SymbolId} {name : String} {id : SymbolId}
    (h : IsKeyword lo s name id) : (s.symbol id).isDeclaration = false := by
  rw [Symbol.isDeclaration, h.kind]
  rfl

theorem describesMember_of_isMember {lo : SymbolId} {name : String} {id : SymbolId}
    {m : WrittenMember} (h : IsMember lo s name id m) :
    DescribesMember (.ofState names s) id m := by
  obtain ⟨t, -, -, htype, hvalue⟩ := h.type
  refine ⟨?_, ?_, h.length⟩
  · show ((s.symbol id).value, (s.symbol id).span) = _
    rw [h.value, h.span]
  · show (s.symbol id).declaredType?.map (fun type => (s.symbol type).value) = _
    rw [htype, Option.map_some, hvalue]

theorem IsStruct.isDeclaration {name : String} {id : SymbolId} {n : Lexeme} {d : WrittenStruct}
    (h : IsStruct s name id n d) : (s.symbol id).isDeclaration = true := by
  obtain ⟨k, -, htype, -⟩ := h.type
  rw [Symbol.isDeclaration, h.kind]
  cases hd : (s.symbol id).declaration? with
  | none =>
    rw [Symbol.declaredType?, hd] at htype
    cases htype
  | some d => rfl

theorem describes_of_isStruct {name : String} {id : SymbolId} {n : Lexeme} {d : WrittenStruct}
    (h : IsStruct s name id n d) : Describes (.ofState names s) id d := by
  obtain ⟨b, lo, hinner, hbody⟩ := h.body
  refine ⟨?_, h.typedefName, ?_⟩
  · show some ((s.symbol id).value, (s.symbol id).span) = _
    rw [h.goesBy, h.value, h.span]
    rfl
  · have hmembers : (TranslationUnit.ofState names s).members id =
        ((s.scopeAt b).definitions.entries.map Prod.snd).filter
          fun id => (s.symbol id).isDeclaration := by
      have hscope : ((TranslationUnit.ofState names s).symbol id).innerScope? = some b := hinner
      rw [TranslationUnit.members, hscope]
      rfl
    rw [hmembers, ← List.filterMap_some (l := d.members)]
    refine (hbody.holds.forall₂_filter (g := some) (fun _ _ => isDeclaration_of_isKeyword)
      fun _ _ _ hm => hm.isDeclaration).imp ?_
    rintro id m ⟨name, _, hm, ⟨⟩⟩
    exact describesMember_of_isMember hm

/-- The structs of a translation unit are those that the outermost scope holds. -/
theorem describes_structs (names : List SymbolId) {as : List Entry} (h : Root s as)
    (hscope : s.scope = 0) :
    List.Forall₂ (Describes (.ofState names s)) (TranslationUnit.ofState names s).structs
      (as.filterMap Entry.struct?) := by
  have hstructs : (TranslationUnit.ofState names s).structs =
      (s.entries.map Prod.snd).filter fun id =>
        (!(s.symbol id).isAlias && (s.symbol id).innerScope?.isSome &&
          (TranslationUnit.ofState names s).isStruct id) && (s.symbol id).isDeclaration := by
    rw [State.entries, hscope]
    exact List.filter_filter
  rw [hstructs]
  -- keywords, structs and typedef names: only the structs pass the filter
  refine (h.holds.forall₂_filter (fun _ _ hkeyword => ?_) ?_).imp ?_
  · rw [isDeclaration_of_isKeyword hkeyword, Bool.and_false]
  · rintro name id (⟨n, d⟩ | n) hentry
    · have hentry : IsStruct s name id n d := hentry
      obtain ⟨k, -, htype, hvalue⟩ := hentry.type
      obtain ⟨b, lo, hinner, -⟩ := hentry.body
      have hstruct : (TranslationUnit.ofState names s).isStruct id = true := by
        show ((s.symbol id).declaredType?.map (fun type => (s.symbol type).value) ==
          some structKeyword) = true
        rw [htype, Option.map_some, hvalue]
        rfl
      rw [hentry.isAlias, hinner, hstruct, hentry.isDeclaration]
      rfl
    · have hentry : IsTypedefName s name id n := hentry
      rw [hentry.isAlias]
      rfl
  · rintro id d ⟨name, ⟨n, d'⟩ | n, hentry, hstruct⟩
    · cases hstruct
      exact describes_of_isStruct hentry
    · cases hstruct

end OfState

/-! ## Whole sources -/

theorem map_key_entries (d : WrittenStruct) : d.entries.map Entry.key = d.names.map (·.text) := by
  unfold WrittenStruct.entries WrittenStruct.goesBy? WrittenStruct.alias? WrittenStruct.names
  cases d.tag? <;> cases d.name? <;> rfl

theorem filterMap_entries {ds : List WrittenStruct} {w : List Lexeme} (hw : WritesAll ds w) :
    (ds.flatMap WrittenStruct.entries).filterMap Entry.struct? = ds := by
  induction hw with
  | nil => rfl
  | @cons d ds v w hv hw ih =>
    have hd : d.entries.filterMap Entry.struct? = [d] := by
      cases hv with
      | intro _ _ _ _ _ _ _ hnamed =>
        unfold WrittenStruct.entries WrittenStruct.goesBy? WrittenStruct.alias?
        cases htag : d.tag? <;> cases hname : d.name? <;> rw [htag, hname] at hnamed
        · simp at hnamed
        all_goals rfl
    rw [List.flatMap_cons, List.filterMap_append, hd, ih]
    rfl

theorem mem_lexemes {items : List Item} {p : Position} {l : Lexeme} (h : l ∈ lexemes p items) :
    ∃ item ∈ items, l.kind = item.2.kind ∧ l.text = item.2.text := by
  induction items generalizing p with
  | nil => cases h
  | cons item items ih =>
    obtain ⟨gap, l'⟩ := item
    rw [lexemes, List.mem_cons] at h
    rcases h with rfl | h
    · exact ⟨(gap, l'), List.mem_cons_self, rfl, rfl⟩
    · obtain ⟨item, hitem, hl⟩ := ih h
      exact ⟨item, List.mem_cons_of_mem _ hitem, hl⟩

theorem ordinary_lexemes {ds : List WrittenStruct} {items : List Item} {last : List Char}
    (h : Spaced items last) (hw : WritesAll ds (lexemes {} items)) : Ordinary (lexemes {} items) := by
  refine ⟨fun l hl => ?_, (adjoin_all hw).imp fun _ _ hadjoin => hadjoin.declared⟩
  have hmem := hl
  rw [← tokens_text h (adjoin_all hw)] at hmem
  obtain ⟨hlexeme, hcomment⟩ := List.mem_filter.1 hmem
  refine (Lexicon.isSpelled_of_mem_lexemes hlexeme).ordinary (by simpa using hcomment) ?_
  obtain ⟨item, hitem, hkind, htext⟩ := mem_lexemes hl
  rw [hkind, htext]
  exact h.named item hitem

/-- Nothing is declared, and nothing reported, before a source is read. -/
theorem root_ofLexemes {ls : List Lexeme} (endPosition : Position)
    (h : Ordinary (ls.filter fun l => !l.isComment)) :
    Root ((State.ofLexemes ls endPosition).advance cStructs) [] ∧
      ((State.ofLexemes ls endPosition).advance cStructs).scope = 0 ∧
      ((State.ofLexemes ls endPosition).advance cStructs).diagnostics = {} := by
  obtain ⟨x, ls', cs, e, heq⟩ := advance_eq_of_none (s := State.ofLexemes ls endPosition) rfl
    (meaningful_ofLexemes ls endPosition) rfl h
  rw [heq]
  exact ⟨⟨Nat.one_pos, .nil⟩, rfl, rfl⟩

/-- A rendered list of struct declarations is read without a diagnostic, and the structs of the
translation unit are the ones that were written, in this order. -/
theorem describes_structs_ofSource {ds : List WrittenStruct} {items : List Item} {last : List Char}
    (h : Spaced items last) (hw : WritesAll ds (lexemes {} items))
    (hnames : ((ds.flatMap WrittenStruct.names).map (·.text)).Nodup)
    (hmembers : ∀ d ∈ ds, (d.members.map (·.name.text)).Nodup) :
    (TranslationUnit.ofSource (String.ofList (text items last))).diagnostics.toList = [] ∧
      List.Forall₂ (Describes (TranslationUnit.ofSource (String.ofList (text items last))))
        (TranslationUnit.ofSource (String.ofList (text items last))).structs ds := by
  generalize hsource : String.ofList (text items last) = source
  have htokens : (Lexicon.lexemes source).1.filter (fun l => !l.isComment) = lexemes {} items := by
    rw [← hsource]
    exact tokens_text h (adjoin_all hw)
  obtain ⟨names, s', hs', hunit⟩ := TranslationUnit.ofLexemes_eq_ofState ends_cStructs
    (Lexicon.lexemes source).1 (Lexicon.lexemes source).2.position
  have hordinary := ordinary_lexemes h hw
  rw [← htokens] at hordinary
  obtain ⟨hreads, -, -⟩ := reads_ofLexemes (Lexicon.lexemes source).2.position hordinary
  obtain ⟨hroot, hscope, hdiagnostics⟩ :=
    root_ofLexemes (Lexicon.lexemes source).2.position hordinary
  rw [htokens] at hreads
  have hunit : TranslationUnit.ofSource source = TranslationUnit.ofState names s' := hunit
  rw [hunit]
  generalize (State.ofLexemes (Lexicon.lexemes source).1 _).advance cStructs = s at *
  obtain ⟨first, s₁, hs₁, hcases⟩ := program_cases hs'
  have hkeys : (([] ++ ds.flatMap WrittenStruct.entries).map Entry.key).Nodup := by
    rw [List.nil_append, List.map_flatMap]
    rw [List.map_flatMap] at hnames
    simpa only [map_key_entries] using hnames
  obtain ⟨hpasses, hframe, hroot₁⟩ := root_statements hw hreads hs₁ hroot hkeys hmembers
  have hend := hpasses.reads.check_end_iff.2 rfl
  -- all lexemes have been read, so there is no stray brace to go on behind
  obtain ⟨-, rfl, rfl⟩ := hcases.resolve_right fun hother => by
    cases hend.symm.trans hother.1
  refine ⟨?_, ?_⟩
  · show s'.diagnostics.toList = []
    rw [hframe.diagnostics, hdiagnostics]
    rfl
  · have := describes_structs names hroot₁ (hframe.scope.trans hscope)
    rw [List.nil_append, filterMap_entries hw] at this
    exact this

theorem describes_structs_of_array_member :
    (TranslationUnit.ofSource "struct p \x7b int x[3]; \x7d q;").diagnostics.toList = [] ∧
      List.Forall₂ (Describes (TranslationUnit.ofSource "struct p \x7b int x[3]; \x7d q;"))
        (TranslationUnit.ofSource "struct p \x7b int x[3]; \x7d q;").structs
        [{ tag? := some ⟨.name, "p", ⟨0, 7⟩, ⟨0, 8⟩⟩
           name? := some ⟨.name, "q", ⟨0, 23⟩, ⟨0, 24⟩⟩
           members := [⟨.int, ⟨.name, "x", ⟨0, 15⟩, ⟨0, 16⟩⟩,
             some ⟨.number, "3", ⟨0, 17⟩, ⟨0, 18⟩⟩⟩] }] := by
  have hblank : Gap [' '] := .cons (.blank rfl) .nil
  let items : List Item :=
    [([], ⟨.name, "struct", {}⟩), ([' '], ⟨.name, "p", {}⟩), ([' '], ⟨.operator, "\x7b", {}⟩),
      ([' '], ⟨.type, "int", {}⟩), ([' '], ⟨.name, "x", {}⟩), ([], ⟨.operator, "[", {}⟩),
      ([], ⟨.number, "3", {}⟩), ([], ⟨.operator, "]", {}⟩), ([], ⟨.operator, ";", {}⟩),
      ([' '], ⟨.operator, "\x7d", {}⟩), ([' '], ⟨.name, "q", {}⟩), ([], ⟨.operator, ";", {}⟩)]
  have hname (c : Char) (cs : List Char) (hc : Scanner.isNameStart c = true)
      (hcs : cs.all Scanner.isNameRest = true) :
      Lexeme.IsSpelled ⟨.name, String.ofList (c :: cs), {}⟩ := ⟨c, cs, rfl, hc, hcs⟩
  have hoperator (c : Char) (hc : c ∈ Scanner.operators) :
      Lexeme.IsSpelled ⟨.operator, String.ofList [c], {}⟩ := ⟨c, hc, rfl⟩
  let written : WrittenStruct :=
    { tag? := some ⟨.name, "p", ⟨0, 7⟩, ⟨0, 8⟩⟩
      name? := some ⟨.name, "q", ⟨0, 23⟩, ⟨0, 24⟩⟩
      members := [⟨.int, ⟨.name, "x", ⟨0, 15⟩, ⟨0, 16⟩⟩,
        some ⟨.number, "3", ⟨0, 17⟩, ⟨0, 18⟩⟩⟩] }
  refine @describes_structs_ofSource [written] items [] ⟨?_, .nil, ?_, by decide, ?_⟩ ?_ (by decide) (by decide)
  · simp only [items, List.forall_mem_cons, List.not_mem_nil, false_imp_iff, implies_true, and_true]
    simp only [hblank, Gap.nil, and_true]
  · simp only [items, List.forall_mem_cons, List.not_mem_nil, false_imp_iff, implies_true, and_true]
    refine ⟨⟨hname 's' _ rfl rfl, nofun⟩, ⟨hname 'p' [] rfl rfl, nofun⟩, ⟨hoperator _ (by decide), nofun⟩,
      ⟨show _ ∈ Lexicon.typeKeywords by decide, nofun⟩, ⟨hname 'x' [] rfl rfl, nofun⟩, ⟨hoperator _ (by decide), nofun⟩,
      ⟨⟨by decide, rfl⟩, nofun⟩, ⟨hoperator _ (by decide), nofun⟩, ⟨hoperator _ (by decide), nofun⟩,
      ⟨hoperator _ (by decide), nofun⟩, ⟨hname 'q' [] rfl rfl, nofun⟩, ⟨hoperator _ (by decide), nofun⟩⟩
  · simp [items, IsWordLike]
  · rw [← List.append_nil (lexemes {} items)]
    refine .cons ?_ .nil
    -- the lexemes that the structure of the declaration is made of, by their number
    let l (k : Nat) : Lexeme := (lexemes {} items).getD k default
    have hmembers : WritesMembers written.members [l 3, l 4, l 5, l 6, l 7, l 8] :=
      .cons rfl (by decide) (.last (.array (by decide) rfl (by decide) rfl (by decide))) (by decide) .nil
    exact @WritesStruct.intro written none (l 0) (l 2) (l 9) (l 11) _ nofun (by decide) (by decide)
      (by decide) hmembers (by decide) (by decide) (by decide) (by decide)

end CStruct.Rendering
