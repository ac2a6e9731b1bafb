import CStruct.Proofs.Comments.Scanning
import CStruct.Proofs.Parse.Conservation
import CStruct.Proofs.Parse.Views

/-!
# Comments are transparent

Reading without the comments goes the same way as reading with them: a state `strip`ped of its
comments, those that are pending and those that have been put aside, is a view of it. The one step to
be looked at is the one that puts comments aside.
-/

namespace CStruct.Parse

open SymbolTable State

/-! ## States without comments -/

namespace State

/-- The state without the comments. -/
def strip (s : State) : State :=
  { s with pending := s.pending.filter fun l => !l.isComment, comments := #[] }

variable (t : SymbolTable) (s : State)

theorem fuel_strip : s.strip.fuel ≤ s.fuel := Nat.add_le_add_right (List.length_filter_le _ _) 2

/-- Once the comments have been put aside, it makes no difference which they were. -/
theorem strip_afterComments (ls : List Lexeme)
    (hnext : s.strip.pending.takeWhile Lexeme.isComment = []) :
    (s.afterComments ls).strip = s.strip.afterComments (ls.filter fun l => !l.isComment) := by
  unfold afterComments
  rw [hnext]
  rfl

theorem strip_advance : (s.advance t).strip = s.strip.advance t := by
  have hpending : s.strip.pending = _ := filter_eq_of_dropWhile s.pending
  cases hnext : s.pending.dropWhile Lexeme.isComment with
  | nil =>
    rw [hnext] at hpending
    dsimp only at hpending
    have hstrip := strip_afterComments s [] (by rw [hpending]; rfl)
    have hnext' : s.strip.pending.dropWhile Lexeme.isComment = [] := by rw [hpending]; rfl
    cases he : s.endSymbol? with
    | none =>
      have he' : s.strip.endSymbol? = none := he
      rw [advance_eq_end he hnext, advance_eq_end he' hnext']
      rw [List.filter_nil] at hstrip
      rw [← hstrip]
      rfl
    | some e =>
      have he' : s.strip.endSymbol? = some e := he
      rw [advance_eq_stay he hnext, advance_eq_stay he' hnext']
      rw [List.filter_nil] at hstrip
      rw [← hstrip]
      rfl
  | cons l ls =>
    rw [hnext] at hpending
    dsimp only at hpending
    -- the comments in front are gone in the other reading, and `l` is next there too
    have hl : ¬l.isComment = true := by rw [isComment_of_next hnext]; nofun
    have hstrip := strip_afterComments s ls (by rw [hpending, List.takeWhile_cons_of_neg hl])
    have hnext' : s.strip.pending.dropWhile Lexeme.isComment =
        l :: ls.filter fun l => !l.isComment := by
      rw [hpending, List.dropWhile_cons_of_neg hl]
    cases hp : s.prototype? t l with
    | some p =>
      have hp' : s.strip.prototype? t l = some p := hp
      rw [advance_eq_push hnext hp, advance_eq_push hnext' hp', ← hstrip]
      rfl
    | none =>
      have hp' : s.strip.prototype? t l = none := hp
      rw [advance_eq_unknown hnext hp, advance_eq_unknown hnext' hp', ← hstrip]
      rfl

theorem strip_closeScope : s.closeScope.strip = s.strip.closeScope := by
  unfold State.closeScope
  have houter : s.strip.outer = s.outer := rfl
  rw [houter]
  split <;> rfl

end State

theorem view_strip (t : SymbolTable) : View t strip where
  fuel_le := fuel_strip
  token _ := rfl
  scope _ := rfl
  outer _ := rfl
  scopes _ := rfl
  symbol _ _ := rfl
  modifySymbol _ _ _ _ := rfl
  report _ _ _ := rfl
  bind _ _ _ := rfl
  openScope _ := rfl
  closeScope := strip_closeScope
  advance := strip_advance t

end CStruct.Parse

namespace CStruct.TranslationUnit

open SymbolTable Parse

/-- Lexemes without their comments have the translation unit without its comments. -/
theorem ofLexemes_withoutComments {t : SymbolTable} (ht : t.Ends) (lexemes : List Lexeme)
    (endPosition : Position) :
    ofLexemes ht (lexemes.filter fun l => !l.isComment) endPosition =
      { ofLexemes ht lexemes endPosition with comments := #[] } := by
  have hstart : State.ofLexemes (lexemes.filter fun l => !l.isComment) endPosition =
      (State.ofLexemes lexemes endPosition).strip := rfl
  obtain ⟨names, s, hwith, hwithout⟩ := (view_strip t).ofLexemes ht hstart
  rw [hwith, hwithout]
  rfl

/-- Comments do not matter: the translation unit of a source with blanks in the place of its comments
is that of the source, but for the comments. -/
theorem ofSource_withoutComments (source : String) :
    ofSource (Lexicon.withoutComments source) = { ofSource source with comments := #[] } := by
  have hsource (text : String) : ofSource text = ofLexemes ends_cStructs
      (Lexicon.lexemes text).1 (Lexicon.lexemes text).2.position := rfl
  rw [hsource, hsource, Lexicon.fst_lexemes_withoutComments,
    Lexicon.position_lexemes_withoutComments]
  exact ofLexemes_withoutComments ends_cStructs _ _

end CStruct.TranslationUnit
