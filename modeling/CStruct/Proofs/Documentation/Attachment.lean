import CStruct.Proofs.Declared.Names
import CStruct.Proofs.Documentation.Lines
import CStruct.TranslationUnit.Documentation

/-!
# Which comment documents a declaration

A comment that starts and stops on the line of a declaration documents it, one that goes on below it
does not. A comment behind a declaration is not taken for that of the next line, as long as the two
declarations belong together.
-/

namespace CStruct

/-- Where a property fails for good once it fails, the longest run with it holds all that has it. -/
theorem takeWhile_eq_filter {α : Type} {p : α → Bool} {l : List α}
    (h : l.Pairwise fun a b => p b = true → p a = true) : l.takeWhile p = l.filter p := by
  induction l with
  | nil => rfl
  | cons a l ih =>
    obtain ⟨hfirst, hrest⟩ := List.pairwise_cons.1 h
    by_cases ha : p a = true
    · rw [List.takeWhile_cons_of_pos ha, List.filter_cons_of_pos ha, ih hrest]
    -- nothing behind the first failure has the property, so the filter stops there as well
    · have hnone : l.filter p = [] :=
        List.filter_eq_nil_iff.2 fun b hb hp => ha (hfirst b hb hp)
      rw [List.takeWhile_cons_of_neg ha, List.filter_cons_of_neg ha, hnone]

namespace TranslationUnit

open SymbolTable Parse Parse.State

/-- The line that a symbol stands on. -/
def line (u : TranslationUnit) (id : SymbolId) : Nat := (u.symbol id).span.start.line

/-- The declared name `n` has its place in the scope of the symbol `d` or in its body. -/
def IsBeside (u : TranslationUnit) (d n : SymbolId) : Prop :=
  ∃ k, ((u.symbol d).scope? = some k ∨ (u.symbol d).innerScope? = some k) ∧
    u.lookup? k (u.symbol n).value = some n

variable {source : String} {d e n : SymbolId} {k : ScopeId} {c : Lexeme}

/-! ## Neighbours -/

/-- The names of a scope are those that their own spelling stands for. -/
theorem mem_declared_iff_lookup? :
    n ∈ (ofSource source).declared k ↔
      (ofSource source).lookup? k ((ofSource source).symbol n).value = some n := by
  rw [mem_declared_iff, lookup?, Option.filter_eq_some_iff]
  refine and_congr_left fun _ => ⟨?_, fun hentry => ⟨_, hentry⟩⟩
  rintro ⟨name, hentry⟩
  rw [(entry_spec (ofLexemes?_ofSource source) hentry).2.1]
  exact hentry

/-- Only structs have a body. -/
theorem isStruct_of_innerScope? (hk : ((ofSource source).symbol d).innerScope? = some k) :
    (ofSource source).isStruct d = true := by
  have hread := ofLexemes?_ofSource source
  obtain ⟨names, s, -, heq, -, hc, -⟩ := brings_ofLexemes hread
  rw [heq] at hread hk ⊢
  have hstruct {j : ScopeId} {x : Declaration} (hx : s.IsDeclared d j .struct x) :
      (ofState names s).isStruct d = true := by
    rw [isStruct, typeName?_of_isDeclared hread hx]
    exact beq_self_eq_true _
  cases hc.made (not_undeclared_of_innerScope? hk) with
  | tagged hx => exact hstruct hx
  | untagged hx => exact hstruct hx
  | forward hx => exact hstruct hx
  | aliased hx => exact hstruct hx
  | member _ hx =>
    have hnone : none = some k := hx.innerScope?_eq.symm.trans hk
    cases hnone

theorem mem_elim_iff {u : TranslationUnit} {scope? : Option ScopeId} :
    n ∈ scope?.elim [] u.declared ↔ ∃ k, scope? = some k ∧ n ∈ u.declared k := by
  cases scope? with
  | none => exact ⟨nofun, nofun⟩
  | some k =>
    constructor
    · exact fun hn => ⟨k, rfl, hn⟩
    · rintro ⟨k', hk, hn⟩
      cases hk
      exact hn

theorem mem_members_iff {u : TranslationUnit} :
    n ∈ u.members d ↔ ∃ k, (u.symbol d).innerScope? = some k ∧ n ∈ u.declared k := by
  rw [← mem_elim_iff, members]
  cases (u.symbol d).innerScope? <;> exact Iff.rfl

/-- The neighbours of a symbol are the names beside it. -/
theorem mem_neighbours_iff :
    n ∈ (ofSource source).neighbours d ↔ n ≠ d ∧ (ofSource source).IsBeside d n := by
  have hinner : n ∈ (if (ofSource source).isStruct d then (ofSource source).members d else []) ↔
      n ∈ (ofSource source).members d := by
    split
    · exact Iff.rfl
    · rename_i hstruct
      refine ⟨nofun, fun hn => ?_⟩
      obtain ⟨k, hk, -⟩ := mem_members_iff.1 hn
      exact absurd (isStruct_of_innerScope? hk) hstruct
  rw [neighbours, List.mem_filter, List.mem_append, hinner, mem_elim_iff, mem_members_iff,
    decide_eq_true_eq, and_comm]
  refine and_congr_right fun _ => ?_
  simp only [mem_declared_iff_lookup?, IsBeside, or_and_right, exists_or]

/-- The line above a symbol is crowded if a name beside the symbol stands on it. -/
theorem isCrowded_eq_false_iff : (ofSource source).isCrowded d = false ↔
    ∀ n, n ≠ d → (ofSource source).IsBeside d n →
      (ofSource source).line n + 1 ≠ (ofSource source).line d := by
  rw [isCrowded, List.any_eq_false]
  refine forall_congr' fun n => ?_
  rw [mem_neighbours_iff, and_imp, standsBelow, line_symbol, beq_iff_eq]
  rfl

/-! ## Comments -/

/-- No comment is missed because the comments below a symbol are not looked at. -/
theorem comment?_eq_find? :
    (ofSource source).comment? d = (ofSource source).comments.toList.find? fun c =>
      decide (c.span.stop.line ≤ (ofSource source).line d) && (ofSource source).documents d c := by
  have hsorted : (ofSource source).comments.toList.Pairwise fun c c' =>
      decide (c'.span.stop.line ≤ (ofSource source).line d) = true →
        decide (c.span.stop.line ≤ (ofSource source).line d) = true := by
    -- if a comment has stopped in time, those before it have stopped before it started
    refine (pairwise_comments source).imp_of_mem fun {c c'} _ hc' hle hlast => ?_
    have hstop := Position.line_le (Position.le_trans hle (start_le_stop_of_mem_comments hc'))
    exact decide_eq_true (Nat.le_trans hstop (of_decide_eq_true hlast))
  calc (ofSource source).comment? d
      = (((ofSource source).comments.toList.takeWhile fun c =>
          decide (c.span.stop.line ≤ (ofSource source).line d)).find?
            ((ofSource source).documents d)) := by
        rw [comment?, line_symbol source d, line]
    _ = _ := by
        rw [takeWhile_eq_filter hsorted, List.find?_filter]
        simp only [Bool.decide_and, Bool.decide_eq_true]

theorem documents_iff : (ofSource source).documents d c = true ↔
    c.span.stop.line + 1 = (ofSource source).line d ∧ (ofSource source).isCrowded d = false ∨
      c.span.start.line = (ofSource source).line d := by
  rw [documents, Bool.or_eq_true, Bool.and_eq_true, standsBelow, beq_iff_eq, beq_iff_eq,
    Bool.not_eq_true']
  rfl

/-- No declared name that has its place in the scope `k` stops on the line, unless it is `d`. -/
def LeavesFree (u : TranslationUnit) (k : ScopeId) (line : Nat) (d : SymbolId) : Prop :=
  ∀ n ∈ u.declared k, n ≠ d → (u.symbol n).span.stop.line ≠ line

instance (u : TranslationUnit) (k : ScopeId) (line : Nat) (d : SymbolId) :
    Decidable (u.LeavesFree k line d) :=
  inferInstanceAs (Decidable (∀ n ∈ u.declared k, n ≠ d → _))

/-- A comment that does not go on below the symbol `d` and starts on its line, or stops right above
it on a line that the scope of `d` and, if `d` is a struct, its body leave free. -/
def Suits (u : TranslationUnit) (d : SymbolId) (c : Lexeme) : Prop :=
  c.span.stop.line ≤ (u.symbol d).span.stop.line ∧
    (c.span.start.line = (u.symbol d).span.start.line ∨
      c.span.stop.line + 1 = (u.symbol d).span.start.line ∧
        (∀ k ∈ (u.symbol d).scope?, u.LeavesFree k c.span.stop.line d) ∧
        (u.isStruct d = true →
          ∀ k ∈ (u.symbol d).innerScope?, u.LeavesFree k c.span.stop.line d))

instance (u : TranslationUnit) (d : SymbolId) (c : Lexeme) : Decidable (u.Suits d c) :=
  inferInstanceAs (Decidable (_ ∧ (_ ∨ _ ∧ _ ∧ _)))

/-- The line above a symbol is not crowded if the scope and the body of the symbol leave it free. -/
theorem isCrowded_eq_false_iff_leavesFree {u : TranslationUnit} {above : Nat}
    (habove : above + 1 = u.line d) :
    u.isCrowded d = false ↔
      (∀ k ∈ (u.symbol d).scope?, u.LeavesFree k above d) ∧
        (u.isStruct d = true → ∀ k ∈ (u.symbol d).innerScope?, u.LeavesFree k above d) := by
  have hline (n : SymbolId) : u.standsBelow d (u.symbol n).span.stop.line = false ↔
      (u.symbol n).span.stop.line ≠ above := by
    rw [line] at habove
    rw [standsBelow, beq_eq_false_iff_ne, ← habove, ne_eq, ne_eq, Nat.add_right_cancel_iff]
  have hscope (scope? : Option ScopeId) :
      (∀ n ∈ scope?.elim [] u.declared, n ≠ d → (u.symbol n).span.stop.line ≠ above) ↔
        ∀ k ∈ scope?, u.LeavesFree k above d := by
    cases scope? <;> simp [LeavesFree]
  have hbody : (∀ n ∈ (if u.isStruct d then u.members d else []), n ≠ d →
        (u.symbol n).span.stop.line ≠ above) ↔
      (u.isStruct d = true → ∀ k ∈ (u.symbol d).innerScope?, u.LeavesFree k above d) := by
    rw [← hscope]
    cases hstruct : u.isStruct d with
    | false => simp
    | true =>
      rw [if_pos rfl, members]
      cases (u.symbol d).innerScope? <;> simp
  rw [isCrowded, List.any_eq_false, ← hscope, ← hbody]
  simp only [neighbours, List.mem_filter, List.mem_append, decide_eq_true_eq, and_imp,
    Bool.not_eq_true, hline, or_imp, forall_and]

/-- What documents a symbol is found by looking through all comments: it is the first that suits the
symbol. The search may stop below the symbol because no comment behind that stops above. -/
theorem description?_eq_find? (source : String) (d : SymbolId) :
    let u := ofSource source
    u.description? d =
      (u.comments.toList.find? fun c => decide (u.Suits d c)).map
        fun c => Comment.description c.text := by
  have hsuits (c : Lexeme) : (decide (c.span.stop.line ≤ (ofSource source).line d) &&
      (ofSource source).documents d c) = decide ((ofSource source).Suits d c) := by
    rw [Bool.eq_iff_iff, Bool.and_eq_true, decide_eq_true_eq, decide_eq_true_eq, documents_iff,
      Suits, line_symbol, or_comm]
    refine and_congr_right fun _ => or_congr_right ?_
    exact and_congr_right fun habove => isCrowded_eq_false_iff_leavesFree habove
  dsimp only
  rw [description?, comment?_eq_find?]
  simp only [hsuits]

/-- A symbol of a source is documented if and only if a comment starts and stops on its line, or one
stops on the line above it and that line is not crowded. A comment that starts on the line of the
symbol and goes on below it does not count. -/
theorem isSome_description?_iff (source : String) (d : SymbolId) :
    let u := ofSource source
    (u.description? d).isSome = true ↔
      (∃ c ∈ u.comments, c.span.start.line = u.line d ∧ c.span.stop.line = u.line d) ∨
      (∃ c ∈ u.comments, c.span.stop.line + 1 = u.line d) ∧
        ∀ n, n ≠ d → u.IsBeside d n → u.line n + 1 ≠ u.line d := by
  dsimp only
  rw [description?, Option.isSome_map, comment?_eq_find?, List.find?_isSome,
    ← isCrowded_eq_false_iff]
  simp only [Bool.and_eq_true, decide_eq_true_eq, documents_iff, Array.mem_toList_iff]
  constructor
  -- the search ends below the symbol, so a comment on its line counts only if it stops there
  · rintro ⟨c, hc, hstop, ⟨habove, hfree⟩ | hstart⟩
    · exact .inr ⟨⟨c, hc, habove⟩, hfree⟩
    · have hle := Position.line_le (start_le_stop_of_mem_comments (Array.mem_toList_iff.2 hc))
      exact .inl ⟨c, hc, hstart, Nat.le_antisymm hstop (hstart ▸ hle)⟩
  · rintro (⟨c, hc, hstart, hstop⟩ | ⟨⟨c, hc, habove⟩, hfree⟩)
    · exact ⟨c, hc, Nat.le_of_eq hstop, .inr hstart⟩
    · exact ⟨c, hc, Nat.le_of_succ_le (Nat.le_of_eq habove), .inl ⟨habove, hfree⟩⟩

/-- A member with a comment behind it that goes on in the next line. -/
def continuedComment : String := "struct a \x7b\n  int x; // first\n  // second\n\x7d;"

/-- A comment that goes on in the next line does not document the member on whose line it starts. -/
theorem description?_of_continuedComment :
    ∃ s ∈ (ofSource continuedComment).structs, ∃ d ∈ (ofSource continuedComment).members s,
      (∃ c ∈ (ofSource continuedComment).comments,
        c.span.start.line = (ofSource continuedComment).line d) ∧
      (ofSource continuedComment).description? d = none := by
  decide +kernel

/-! ## Comments behind a declaration -/

/-- A comment that documents a symbol on another line stops right above the symbol, on a line on
which no name beside the symbol stands. -/
theorem above_of_comment? (h : (ofSource source).comment? d = some c)
    (hline : c.span.start.line ≠ (ofSource source).line d) :
    c.span.stop.line + 1 = (ofSource source).line d ∧
      ∀ n, n ≠ d → (ofSource source).IsBeside d n →
        (ofSource source).line n ≠ c.span.stop.line := by
  have hdocuments : (ofSource source).documents d c = true := List.find?_some h
  obtain ⟨habove, hfree⟩ := (documents_iff.1 hdocuments).resolve_right hline
  refine ⟨habove, fun n hn hbeside heq => isCrowded_eq_false_iff.1 hfree n hn hbeside ?_⟩
  rw [heq, habove]

/-- A comment that starts and stops on the line of a declared name never documents a symbol on
another line that the name belongs together with: one in whose scope or body the name has its place.
Whatever a comment starts behind, it documents a symbol on another line only if it stops right above
the symbol, on a line on which no such name stands. -/
theorem comment?_of_trailing (hline : (ofSource source).line d ≠ (ofSource source).line e)
    (hstart : c.span.start.line = (ofSource source).line d) :
    ((ofSource source).IsBeside e d → c.span.stop.line = (ofSource source).line d →
      (ofSource source).comment? e ≠ some c) ∧
    ((ofSource source).comment? e = some c →
      c.span.stop.line + 1 = (ofSource source).line e ∧
        ∀ n, n ≠ e → (ofSource source).IsBeside e n →
          (ofSource source).line n ≠ c.span.stop.line) := by
  have hother : c.span.start.line ≠ (ofSource source).line e := fun heq =>
    hline (hstart.symm.trans heq)
  refine ⟨fun hbeside hstop h => ?_, fun h => above_of_comment? h hother⟩
  -- a comment that stops on the line of `d` would need that line to be free of names beside `e`
  have hne : d ≠ e := fun heq => hline (congrArg _ heq)
  exact (above_of_comment? h hother).2 d hne hbeside hstop.symm

/-- A comment behind the first of two members. -/
def trailingComment : String := "struct a \x7b\n  int x; // first\n  int y;\n\x7d;"

theorem comment?_of_trailingComment :
    ∃ c ∈ (ofSource trailingComment).comments,
      (ofSource trailingComment).line 4 ≠ (ofSource trailingComment).line 7 ∧
      c.span.start.line = (ofSource trailingComment).line 4 ∧
      (ofSource trailingComment).IsBeside 7 4 ∧
      (ofSource trailingComment).comment? 7 ≠ some c := by
  obtain ⟨⟨c, hmem, hstart, hstop⟩, hline, hscope, hlookup⟩ :
      (∃ c ∈ (ofSource trailingComment).comments,
        c.span.start.line = (ofSource trailingComment).line 4 ∧
        c.span.stop.line = (ofSource trailingComment).line 4) ∧
      (ofSource trailingComment).line 4 ≠ (ofSource trailingComment).line 7 ∧
      ((ofSource trailingComment).symbol 7).scope? = some 1 ∧
      (ofSource trailingComment).lookup? 1 ((ofSource trailingComment).symbol 4).value = some 4 := by
    decide +kernel
  have hbeside : (ofSource trailingComment).IsBeside 7 4 := ⟨1, .inl hscope, hlookup⟩
  exact ⟨c, hmem, hline, hstart, hbeside, (comment?_of_trailing hline hstart).1 hbeside hstop⟩

/-- A comment behind the tag of a struct, above its only member. -/
def headComment : String := "struct a \x7b // about a\n  int x;\n\x7d;"

/-- A comment behind the tag of a struct documents the member on the next line, because the tag is
not in the scope of the member. -/
theorem comment?_of_headComment :
    ∃ c ∈ (ofSource headComment).comments,
      ((ofSource headComment).symbol 1).isDeclaration = true ∧
      ((ofSource headComment).symbol 4).isDeclaration = true ∧
      (ofSource headComment).line 1 ≠ (ofSource headComment).line 4 ∧
      c.span.start.line = (ofSource headComment).line 1 ∧
      ((ofSource headComment).symbol 1).span.stop ≤ c.span.start ∧
      (ofSource headComment).comment? 4 = some c := by
  decide +kernel

end TranslationUnit

end CStruct
