import CStruct.Proofs.Parse.Conservation
import CStruct.Proofs.Parse.Views

/-!
# Places are transparent

Where its lexemes stand makes no difference to what a source declares: a state without the places
of its lexemes, symbols and diagnostics is a view of it. So sources with the same lexemes, each
wherever it stands, have translation units that agree but for places.
-/

namespace CStruct

/-! ## Without places -/

/-- The lexeme, wherever it stands. -/
def Lexeme.unplaced (l : Lexeme) : Lexeme := { l with span := {} }

/-- The remark, wherever it was made. -/
def Diagnostic.unplaced (d : Diagnostic) : Diagnostic := { d with span := {} }

def Diagnostics.unplaced (ds : Diagnostics) : Diagnostics := ⟨ds.entries.map Diagnostic.unplaced⟩

theorem Diagnostics.unplaced_report (ds : Diagnostics) (d : Diagnostic) :
    (ds.report d).unplaced = ds.unplaced.report d.unplaced :=
  congrArg Diagnostics.mk Array.map_push

/-- A change that lets the place of a symbol be may come before places are left out or after. -/
theorem map_unplaced_modify (symbols : Array Symbol) (id : SymbolId) {f : Symbol → Symbol}
    (hf : ∀ x, (f x).unplaced = f x.unplaced) :
    (symbols.modify id f).map Symbol.unplaced = (symbols.map Symbol.unplaced).modify id f := by
  refine Array.ext (by simp) fun i hi hi' => ?_
  rw [Array.getElem_map, Array.getElem_modify, Array.getElem_modify, Array.getElem_map]
  split
  · exact hf _
  · rfl

theorem getD_map_unplaced (symbols : Array Symbol) (id : SymbolId) :
    (symbols.map Symbol.unplaced).getD id default = (symbols.getD id default).unplaced := by
  rw [Array.getD_eq_getD_getElem?, Array.getD_eq_getD_getElem?, Array.getElem?_map]
  cases symbols[id]? <;> rfl

namespace Parse

open SymbolTable State

/-! ## States without places -/

namespace State

/-- The state without places. -/
def unplaced (s : State) : State :=
  { s with
    pending := s.pending.map Lexeme.unplaced
    endPosition := {}
    symbols := s.symbols.map Symbol.unplaced
    diagnostics := s.diagnostics.unplaced
    comments := s.comments.map Lexeme.unplaced }

variable (t : SymbolTable) (s : State)

theorem symbol_unplaced (id : SymbolId) : s.unplaced.symbol id = (s.symbol id).unplaced :=
  getD_map_unplaced s.symbols id

theorem unplaced_modifySymbol (id : SymbolId) {f : Symbol → Symbol}
    (hf : ∀ x, (f x).unplaced = f x.unplaced) :
    (s.modifySymbol id f).unplaced = s.unplaced.modifySymbol id f := by
  rw [unplaced, modifySymbol, map_unplaced_modify _ _ hf]
  rfl

/-- A remark says the same wherever it is made. -/
theorem unplaced_reportAt (span : Span) (problem : Problem) :
    (s.reportAt span problem).unplaced = s.unplaced.reportAt {} problem := by
  rw [unplaced, reportAt, Diagnostics.unplaced_report]
  rfl

theorem unplaced_report (id : SymbolId) (problem : Problem) :
    (s.report id problem).unplaced = s.unplaced.report id problem := by
  rw [report, unplaced_reportAt, report, symbol_unplaced]
  rfl

theorem unplaced_push (x : Symbol) : (s.push x).unplaced = s.unplaced.push x.unplaced := by
  rw [unplaced, push, Array.map_push, push, unplaced, Array.size_map]

theorem prototype?_unplaced (l : Lexeme) :
    s.unplaced.prototype? t l.unplaced = s.prototype? t l := by
  have hresolve (name : String) : s.unplaced.resolve t name = s.resolve t name := by
    unfold resolve
    have hfind : s.unplaced.find? name = s.find? name := rfl
    rw [hfind]
    split
    · rw [symbol_unplaced]
      rfl
    · rfl
  have hkind : l.unplaced.kind = l.kind := rfl
  have htext : l.unplaced.text = l.text := rfl
  rw [prototype?, prototype?, hkind, htext, hresolve]

theorem unplaced_afterComments (ls : List Lexeme) :
    (s.afterComments ls).unplaced = s.unplaced.afterComments (ls.map Lexeme.unplaced) := by
  have htake : s.unplaced.pending.takeWhile Lexeme.isComment =
      (s.pending.takeWhile Lexeme.isComment).map Lexeme.unplaced := List.takeWhile_map
  have hcomments : (s.comments ++ s.pending.takeWhile Lexeme.isComment).map Lexeme.unplaced =
      s.comments.map Lexeme.unplaced ++
        (s.pending.takeWhile Lexeme.isComment).map Lexeme.unplaced := by
    apply Array.toList_inj.1
    simp
  rw [unplaced, afterComments, hcomments, afterComments, htake]
  rfl

theorem unplaced_advance : (s.advance t).unplaced = s.unplaced.advance t := by
  have hdrop : s.unplaced.pending.dropWhile Lexeme.isComment =
      (s.pending.dropWhile Lexeme.isComment).map Lexeme.unplaced := List.dropWhile_map
  cases hnext : s.pending.dropWhile Lexeme.isComment with
  | nil =>
    rw [hnext] at hdrop
    cases he : s.endSymbol? with
    | none =>
      have he' : s.unplaced.endSymbol? = none := he
      have hpush : ((s.afterComments []).push (s.endSymbolOf t)).unplaced =
          (s.unplaced.afterComments []).push (s.unplaced.endSymbolOf t) := by
        rw [unplaced_push, unplaced_afterComments]
        rfl
      have hsize : s.unplaced.symbols.size = s.symbols.size := Array.size_map
      rw [advance_eq_end he hnext, advance_eq_end he' hdrop, ← hpush, hsize]
      rfl
    | some e =>
      have he' : s.unplaced.endSymbol? = some e := he
      have hcomments : (s.afterComments []).unplaced = s.unplaced.afterComments [] :=
        unplaced_afterComments s []
      rw [advance_eq_stay he hnext, advance_eq_stay he' hdrop, ← hcomments]
      rfl
  | cons l ls =>
    rw [hnext] at hdrop
    cases hp : s.prototype? t l with
    | some p =>
      have hp' : s.unplaced.prototype? t l.unplaced = some p := (prototype?_unplaced t s l).trans hp
      rw [advance_eq_push hnext hp, advance_eq_push hdrop hp', unplaced_push,
        unplaced_afterComments]
      rfl
    | none =>
      have hp' : s.unplaced.prototype? t l.unplaced = none := (prototype?_unplaced t s l).trans hp
      rw [advance_eq_unknown hnext hp, advance_eq_unknown hdrop hp', unplaced_push,
        unplaced_reportAt, unplaced_afterComments]
      rfl

theorem unplaced_closeScope : s.closeScope.unplaced = s.unplaced.closeScope := by
  unfold State.closeScope
  have houter : s.unplaced.outer = s.outer := rfl
  rw [houter]
  split <;> rfl

end State

/-- Reading does not look at places. -/
theorem view_unplaced (t : SymbolTable) : View t unplaced where
  fuel_le s := by
    rw [State.fuel, unplaced, List.length_map]
    rfl
  token _ := rfl
  scope _ := rfl
  outer _ := rfl
  scopes _ := rfl
  symbol s id := by rw [symbol_unplaced]; rfl
  modifySymbol s id _ hf := unplaced_modifySymbol s id hf
  report := unplaced_report
  bind _ _ _ := rfl
  openScope _ := rfl
  closeScope := unplaced_closeScope
  advance := unplaced_advance t

end Parse

/-! ## Translation units without places -/

namespace TranslationUnit

open SymbolTable Parse

/-- The translation unit without places. -/
def unplaced (u : TranslationUnit) : TranslationUnit :=
  { u with
    symbols := u.symbols.map Symbol.unplaced
    diagnostics := u.diagnostics.unplaced
    comments := u.comments.map Lexeme.unplaced }

theorem ofLexemes_unplaced {t : SymbolTable} (ht : t.Ends) (lexemes : List Lexeme)
    (stop : Position) :
    ofLexemes ht (lexemes.map Lexeme.unplaced) {} = (ofLexemes ht lexemes stop).unplaced := by
  have hstart : State.ofLexemes (lexemes.map Lexeme.unplaced) {} =
      (State.ofLexemes lexemes stop).unplaced := by
    simp [State.ofLexemes, State.unplaced, Diagnostics.unplaced]
  obtain ⟨names, s, hplaced, hunplaced⟩ := (view_unplaced t).ofLexemes ht hstart
  rw [hplaced, hunplaced]
  rfl

/-- Sources with the same lexemes have the same translation unit, but for places. -/
theorem unplaced_ofSource {a b : String}
    (h : (Lexicon.lexemes a).1.map Lexeme.unplaced = (Lexicon.lexemes b).1.map Lexeme.unplaced) :
    (ofSource a).unplaced = (ofSource b).unplaced := by
  have hsource (text : String) : (ofSource text).unplaced =
      ofLexemes ends_cStructs ((Lexicon.lexemes text).1.map Lexeme.unplaced) {} :=
    (ofLexemes_unplaced ends_cStructs _ _).symm
  rw [hsource, hsource, h]

/-! ### What does not depend on places -/

section

variable (u : TranslationUnit)

theorem symbol_unplaced (id : SymbolId) : u.unplaced.symbol id = (u.symbol id).unplaced :=
  getD_map_unplaced u.symbols id

theorem typeName?_unplaced (id : SymbolId) : u.unplaced.typeName? id = u.typeName? id := by
  unfold typeName?
  simp only [symbol_unplaced]
  rfl

theorem isStruct_unplaced (id : SymbolId) : u.unplaced.isStruct id = u.isStruct id := by
  rw [isStruct, typeName?_unplaced, isStruct]

theorem declared_unplaced (scope : ScopeId) : u.unplaced.declared scope = u.declared scope := by
  unfold declared
  simp only [symbol_unplaced]
  rfl

theorem structs_unplaced : u.unplaced.structs = u.structs := by
  unfold structs
  simp only [symbol_unplaced, declared_unplaced, isStruct_unplaced]
  rfl

theorem members_unplaced (id : SymbolId) : u.unplaced.members id = u.members id := by
  unfold members
  rw [symbol_unplaced]
  have hscope : (u.symbol id).unplaced.innerScope? = (u.symbol id).innerScope? := rfl
  rw [hscope]
  split
  · exact declared_unplaced u _
  · rfl

end

/-- The same is declared in both, under the same numbers, and the same remarks are made. -/
structure Agrees (u v : TranslationUnit) : Prop where
  declarations : u.declarations = v.declarations
  structs : u.structs = v.structs
  members (id : SymbolId) : u.members id = v.members id
  name (id : SymbolId) : (u.symbol id).value = (v.symbol id).value
  alias? (id : SymbolId) : (u.symbol id).alias? = (v.symbol id).alias?
  typeName? (id : SymbolId) : u.typeName? id = v.typeName? id
  dimension? (id : SymbolId) : (u.symbol id).dimension? = (v.symbol id).dimension?
  remarks : u.diagnostics.toList.map (fun d => (d.severity, d.message)) =
    v.diagnostics.toList.map fun d => (d.severity, d.message)

theorem Agrees.of_unplaced {u v : TranslationUnit} (h : u.unplaced = v.unplaced) : u.Agrees v := by
  have hsymbol (id : SymbolId) : (u.symbol id).unplaced = (v.symbol id).unplaced := by
    rw [← symbol_unplaced, h, symbol_unplaced]
  have hremarks (w : TranslationUnit) :
      w.diagnostics.toList.map (fun d => (d.severity, d.message)) =
        w.unplaced.diagnostics.toList.map fun d => (d.severity, d.message) := by
    show _ = (w.diagnostics.entries.map Diagnostic.unplaced).toList.map _
    rw [Array.toList_map, List.map_map]
    rfl
  exact
    { declarations := congrArg (·.declarations) h
      structs := by rw [← structs_unplaced, h, structs_unplaced]
      members := fun id => by rw [← members_unplaced, h, members_unplaced]
      name := fun id => Symbol.eq_of_unplaced (fun _ => rfl) (hsymbol id)
      alias? := fun id => Symbol.eq_of_unplaced (fun _ => rfl) (hsymbol id)
      typeName? := fun id => by rw [← typeName?_unplaced, h, typeName?_unplaced]
      dimension? := fun id => Symbol.eq_of_unplaced (fun _ => rfl) (hsymbol id)
      remarks := (hremarks u).trans (h ▸ (hremarks v).symm) }

end TranslationUnit

end CStruct
