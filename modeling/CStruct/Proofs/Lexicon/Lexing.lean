import CStruct.Proofs.Lexer.Steps
import CStruct.Proofs.Lexicon.Preferred
import CStruct.Proofs.Pattern.Alternatives
import Mathlib.Data.List.Forall2

/-!
# The lexer scans

Running the rules of the lexicon over a text gives the lexemes that the scanner finds. At each
place, the rules claim the piece that the scanner measures there.
-/

namespace CStruct.Lexicon

open Lexer Pattern

/-! ## Claims -/

/-- The pattern of the entry matches as far as it was measured, and makes lexemes of the kind. -/
def Measured (c : Cursor) (e : Entry) (m : Option LexemeKind × Option Nat) : Prop :=
  (Automaton.ofPattern e.pattern).matchAt? c = m.2.map (fun n => c.skip n) ∧ e.kind = m.1

/-- What the scanner measures for each entry; the last one passes over a character. -/
def pieces (before : Option Char) (text : List Char) : List (Option LexemeKind × Option Nat) :=
  Scanner.measures before text ++ [(none, if text.head?.any Scanner.inLine then some 1 else none)]

theorem isSteady_of_mem_entries {e : Entry} (h : e ∈ entries) : e.pattern.isSteady = true := by
  have hall : ∀ e ∈ entries, e.pattern.isSteady = true := by decide +kernel
  exact hall e h

theorem measured_of_entry {e : Entry} (he : e ∈ entries) {c : Cursor} {n? : Option Nat}
    (hends : (e.pattern.ends c).head? = n?.map fun n => c.skip n) : Measured c e (e.kind, n?) := by
  refine ⟨?_, rfl⟩
  rw [Automaton.matchAt?_ofPattern (isSteady_of_mem_entries he), hends]

theorem measured_entries (c : Cursor) :
    List.Forall₂ (Measured c) entries (pieces c.before c.rest) := by
  have hmem (e : Entry) : e ∈ entries ↔ e ∈ [blockComment, lineComments, number, typeKeyword, name,
    operator, blanks, anything] := Iff.rfl
  refine .cons (measured_of_entry (by simp [hmem]) (head?_blockComment c)) ?_
  refine .cons (measured_of_entry (by simp [hmem]) (head?_lineComments c)) ?_
  refine .cons (measured_of_entry (by simp [hmem]) (head?_number c)) ?_
  refine .cons (measured_of_entry (by simp [hmem]) (head?_typeKeyword c)) ?_
  refine .cons (measured_of_entry (by simp [hmem]) (head?_name c)) ?_
  refine .cons (measured_of_entry (by simp [hmem]) (head?_operator c)) ?_
  refine .cons (measured_of_entry (by simp [hmem]) (head?_blanks c)) ?_
  refine .cons (measured_of_entry (by simp [hmem]) ?_) .nil
  rw [head?_anything]
  split <;> rfl

/-- The first entry with a match is the one that matches, under the name of its rule, and the first
measure is its length. The induction goes along the entries and their measures together, with the
number `k` of the first of these entries. -/
theorem findSome?_of_measured {c : Cursor} {es : List Entry}
    {ms : List (Option LexemeKind × Option Nat)} (h : List.Forall₂ (Measured c) es ms) (k : Nat)
    {kind? : Option LexemeKind} {n : Nat}
    (hpiece : ms.findSome? (fun (kind?, n?) => n?.map (kind?, ·)) = some (kind?, n)) :
    ∃ i e, es[i]? = some e ∧ e.kind = kind? ∧
      ((es.mapIdx fun i e => Pattern.group (some (Rule.groupName (i + k))) e.pattern).findSome?
        fun q => ((Automaton.ofPattern q).matchAt? c).map fun stop =>
          (⟨c.offset, stop.offset, q.groupName?.toList⟩ : Match)) =
        some ⟨c.offset, (c.skip n).offset, [Rule.groupName (i + k)]⟩ := by
  induction h generalizing k with
  | nil => cases hpiece
  | @cons e m es ms hm _ ih =>
    obtain ⟨kind', n?⟩ := m
    have hgroup : (Automaton.ofPattern (.group (some (Rule.groupName (0 + k))) e.pattern)).matchAt? c =
        n?.map fun n => c.skip n := hm.1
    rw [List.mapIdx_cons, List.findSome?_cons, hgroup]
    cases n? with
    | some n' =>
      obtain ⟨rfl, rfl⟩ := Prod.mk.inj (Option.some.inj hpiece)
      exact ⟨0, e, rfl, hm.2, rfl⟩
    | none =>
      obtain ⟨i, e', he', hkind, hfind⟩ := ih (k + 1) hpiece
      refine ⟨i + 1, e', he', hkind, ?_⟩
      simp only [Option.map_none, Nat.add_right_comm _ 1 k, Nat.add_assoc]
      exact hfind

theorem findSome?_pieces {before : Option Char} {text : List Char} (h : text ≠ []) :
    (pieces before text).findSome? (fun (kind?, n?) => n?.map (kind?, ·)) =
      some (Scanner.pieceAt before text) := by
  obtain ⟨ch, rest, rfl⟩ := List.exists_cons_of_ne_nil h
  rw [pieces, List.findSome?_append, Scanner.pieceAt]
  cases hfind : (Scanner.measures before (ch :: rest)).findSome?
      (fun (kind?, n?) => n?.map (kind?, ·)) with
  | some piece => rfl
  | none =>
    -- the end of a line is blank, so it has been measured
    have hblank : Scanner.run? Text.isBlank (ch :: rest) = none :=
      Option.map_eq_none_iff.1 (List.findSome?_eq_none_iff.1 hfind
        (none, Scanner.run? Text.isBlank (ch :: rest)) (by simp [Scanner.measures]))
    have hline : Scanner.inLine ch = true := by
      refine bne_iff_ne.2 fun hch => ?_
      subst hch
      exact Option.some_ne_none _ hblank
    rw [Option.none_or, List.findSome?_cons, List.head?_cons, Option.any_some, if_pos hline]
    rfl

/-- The rules claim the piece that the scanner finds. -/
theorem matchAt?_regex {c : Cursor} (hrest : c.rest ≠ []) :
    ∃ i e, entries[i]? = some e ∧ e.kind = (Scanner.pieceAt c.before c.rest).1 ∧
      regex.matchAt? c = some ⟨c.offset, c.offset + (Scanner.pieceAt c.before c.rest).2,
        [Rule.groupName i]⟩ := by
  have hle := Scanner.pieceAt_le c.before hrest
  obtain ⟨i, e, he, hkind, hfind⟩ :=
    findSome?_of_measured (measured_entries c) 0 (findSome?_pieces hrest)
  refine ⟨i, e, he, hkind, ?_⟩
  rw [regex, Pattern.Regex.matchAt?_ofPattern, ← Cursor.offset_skip hle]
  exact hfind

/-! ## Running -/

/-- The lexer has the rules of the lexicon, however often their actions have been called, and stands
in the text. -/
structure Serving (l : Lexer engine Lexeme) : Prop where
  actions : l.rules.map Rule.action = entries.map fun e => e.toRule.action
  le : l.offset ≤ l.source.length

theorem serving_running (source : String) : Serving (running source) where
  actions := by
    rw [running, lexer, ofRules, List.map_map]
    rfl
  le := Nat.zero_le _

/-- The cursor where a lexer stands. -/
def cursor (l : Lexer engine Lexeme) : Cursor := .ofOffset l.source l.offset

theorem rest_cursor (l : Lexer engine Lexeme) : (cursor l).rest = l.source.drop l.offset :=
  Cursor.rest_ofOffset _

theorem left_eq (l : Lexer engine Lexeme) : l.left = (cursor l).rest.length := by
  rw [rest_cursor, List.length_drop, left]

/-- The lexemes that a lexer has yet to find. -/
def remaining (l : Lexer engine Lexeme) : List Lexeme :=
  Scanner.scan (cursor l).before l.position (cursor l).rest

/-- How long the piece is that a lexer stands before. -/
def pieceLength (l : Lexer engine Lexeme) : Nat :=
  (Scanner.pieceAt (cursor l).before (cursor l).rest).2

/-- The lexer behind the piece that it stands before. -/
def pastPiece (l : Lexer engine Lexeme) (i : Nat) : Lexer engine Lexeme :=
  (l.moveTo (l.offset + pieceLength l)).counting i

/-- The text of the piece. -/
theorem textTo_pieceLength (l : Lexer engine Lexeme) :
    l.textTo (l.offset + pieceLength l) = (cursor l).rest.take (pieceLength l) := by
  rw [textTo, rest_cursor, List.drop_take, Nat.add_sub_cancel_left]

theorem cursor_pastPiece (l : Lexer engine Lexeme) (i : Nat) :
    cursor (pastPiece l i) = (cursor l).skip (pieceLength l) :=
  (Cursor.skip_ofOffset l.offset (pieceLength l)).symm

section Piece

variable {l : Lexer engine Lexeme} (h : Serving l) (hrest : (cursor l).rest ≠ [])

theorem left_pastPiece_lt (hrest : (cursor l).rest ≠ []) (i : Nat) :
    (pastPiece l i).left < l.left := by
  have hpos := Scanner.pieceAt_pos (cursor l).before (cursor l).rest
  have hrestPos := List.length_pos_iff.2 hrest
  rw [left_eq, left_eq, cursor_pastPiece, Cursor.rest_skip, List.length_drop, pieceLength]
  omega

include h hrest

theorem Serving.pastPiece (i : Nat) : Serving (pastPiece l i) where
  actions := by
    rw [← h.actions]
    apply List.ext_getElem?
    intro k
    show ((l.rules.modify i _).map Rule.action)[k]? = _
    rw [List.getElem?_map, List.getElem?_map, List.getElem?_modify]
    cases l.rules[k]? with
    | none => rfl
    | some r =>
      rw [Option.map_eq_map, Option.map_some]
      split <;> rfl
  le := by
    have hle := Scanner.pieceAt_le (cursor l).before hrest
    have hoffset := h.le
    rw [rest_cursor, List.length_drop] at hle
    show l.offset + pieceLength l ≤ l.source.length
    rw [pieceLength, rest_cursor]
    omega

/-- A lexer goes past the piece that it stands before, and makes a lexeme of it. -/
theorem step_of_ne_nil :
    ∃ i, l.step regex = (Lexicon.pastPiece l i,
      match (Scanner.pieceAt (cursor l).before (cursor l).rest).1 with
      | some kind => .yielded ⟨kind, String.ofList ((cursor l).rest.take (pieceLength l)),
          ⟨l.position, (Lexicon.pastPiece l i).position⟩⟩
      | none => .passed) := by
  obtain ⟨i, e, he, hkind, hmatch⟩ := matchAt?_regex hrest
  have hpos : 0 < pieceLength l := Scanner.pieceAt_pos (cursor l).before (cursor l).rest
  have hoffset : (cursor l).offset = l.offset := Cursor.offset_ofOffset h.le
  rw [hoffset] at hmatch
  have hfind : engine.find? regex l.source l.offset =
      some ⟨l.offset, l.offset + pieceLength l, [Rule.groupName i]⟩ :=
    Regex.find?_eq_some_iff.2
      ⟨Nat.le_refl _, h.le, hmatch, fun s hs hlt => absurd hlt (Nat.not_lt.2 hs)⟩
  have haction := congrArg (·[i]?) h.actions
  rw [List.getElem?_map, List.getElem?_map, he] at haction
  obtain ⟨r, hr, hraction⟩ := Option.map_eq_some_iff.1 haction
  have hlength : l.rules.length = entries.length := by
    have hlengths := congrArg List.length h.actions
    rwa [List.length_map, List.length_map] at hlengths
  -- a match names one rule only, so that is the first whose group took part
  have hclaim : claim? l.rules.length
      ⟨l.offset, l.offset + pieceLength l, [Rule.groupName i]⟩ = some i := by
    have hall : ∀ i < entries.length, claim? entries.length ⟨0, 0, [Rule.groupName i]⟩ = some i := by
      decide +kernel
    rw [hlength]
    exact hall i (List.getElem?_eq_some_iff.1 he).1
  refine ⟨i, ?_⟩
  rw [step, hfind]
  dsimp only
  rw [moveTo_offset, hclaim, if_pos (Nat.lt_add_of_pos_right hpos)]
  dsimp only
  rw [fire, hr, Option.bind_some, hraction, textTo_pieceLength]
  show (_, Outcome.ofAnswer (e.kind.map _)) = _
  rw [hkind]
  cases (Scanner.pieceAt (cursor l).before (cursor l).rest).1 <;> rfl

omit h in
theorem remaining_of_ne_nil (i : Nat) :
    remaining l =
      match (Scanner.pieceAt (cursor l).before (cursor l).rest).1 with
      | some kind => ⟨kind, String.ofList ((cursor l).rest.take (pieceLength l)),
          ⟨l.position, (Lexicon.pastPiece l i).position⟩⟩ :: remaining (Lexicon.pastPiece l i)
      | none => remaining (Lexicon.pastPiece l i) := by
  have hbefore := Cursor.before_skip (Scanner.pieceAt_pos (cursor l).before (cursor l).rest)
    (Scanner.pieceAt_le (cursor l).before hrest)
  have hposition : (Lexicon.pastPiece l i).position =
      l.position.after ((cursor l).rest.take (pieceLength l)) := by
    rw [← textTo_pieceLength]
    rfl
  have hpast : remaining (Lexicon.pastPiece l i) =
      Scanner.scan ((cursor l).rest.take (pieceLength l)).getLast?
        (l.position.after ((cursor l).rest.take (pieceLength l)))
        ((cursor l).rest.drop (pieceLength l)) := by
    rw [remaining, hposition, cursor_pastPiece, Cursor.rest_skip, pieceLength, hbefore]
  rw [hpast, hposition]
  exact Scanner.scan_of_ne_nil _ _ hrest

end Piece

theorem remaining_of_nil {l : Lexer engine Lexeme} (hrest : (cursor l).rest = []) :
    remaining l = [] := by
  rw [remaining, hrest, Scanner.scan]

theorem rest_of_left_eq_zero {l : Lexer engine Lexeme} (hleft : l.left = 0) :
    (cursor l).rest = [] :=
  List.eq_nil_of_length_eq_zero ((left_eq l).symm.trans hleft)

/-- Going on to the next lexeme finds the first one that remains, and leaves the others. The induction
is on the text that is left, of which every piece takes some. -/
theorem advance_spec {l : Lexer engine Lexeme} (h : Serving l) {left : Nat}
    (hleft : l.left ≤ left) :
    match advance regex left l with
    | (none, _) => remaining l = []
    | (some x, l') => remaining l = x :: remaining l' ∧ Serving l' ∧ l'.phase = l.phase ∧
        l'.left < l.left := by
  induction left generalizing l with
  | zero => exact remaining_of_nil (rest_of_left_eq_zero (Nat.le_zero.1 hleft))
  | succ left ih =>
    by_cases hrest : (cursor l).rest = []
    · have hnone : l.left = 0 := by rw [left_eq, hrest, List.length_nil]
      rw [advance, step_of_left_eq_zero hnone]
      exact remaining_of_nil hrest
    · obtain ⟨i, hstep⟩ := step_of_ne_nil h hrest
      have hremaining := remaining_of_ne_nil hrest i
      have hserving := h.pastPiece hrest i
      have hlt := left_pastPiece_lt hrest i
      rw [advance, hstep]
      cases hkind : (Scanner.pieceAt (cursor l).before (cursor l).rest).1 with
      | some kind =>
        rw [hkind] at hremaining
        exact ⟨hremaining, hserving, rfl, hlt⟩
      | none =>
        rw [hkind] at hremaining
        have hpast := ih hserving (by omega)
        dsimp only
        rw [hremaining]
        split at hpast
        · exact hpast
        · obtain ⟨hcons, hserving', hphase, hlt'⟩ := hpast
          exact ⟨hcons, hserving', hphase, Nat.lt_trans hlt' hlt⟩

theorem next_of_running {l : Lexer engine Lexeme} (hphase : l.phase = .running regex) :
    l.next = advance regex l.left l := by
  rw [next, hphase]

/-- Each lexeme that is found leaves less text, so the text left is a bound for how many there are. -/
theorem collect_eq {l : Lexer engine Lexeme} (h : Serving l) (hphase : l.phase = .running regex)
    {left : Nat} (hleft : l.left ≤ left) : (collect left l).1 = remaining l := by
  induction left generalizing l with
  | zero => exact (remaining_of_nil (rest_of_left_eq_zero (Nat.le_zero.1 hleft))).symm
  | succ left ih =>
    have hadvance := advance_spec h (Nat.le_refl l.left)
    rw [collect, next_of_running hphase]
    rcases hresult : advance regex l.left l with ⟨_ | x, l'⟩
    · rw [hresult] at hadvance ⊢
      exact hadvance.symm
    · rw [hresult] at hadvance ⊢
      obtain ⟨hcons, hserving, hphase', hlt⟩ := hadvance
      rw [hcons, ← ih hserving (hphase'.trans hphase) (by omega)]

theorem fst_lexemes (source : String) : (lexemes source).1 = Scanner.lexemes source :=
  collect_eq (serving_running source) rfl (Nat.le_refl source.toList.length)

/-! ## The end of the text -/

/-- Where a lexer will be when it has gone through the text ahead of it. -/
def endPosition (l : Lexer engine Lexeme) : Position := l.position.after (cursor l).rest

theorem endPosition_pastPiece (l : Lexer engine Lexeme) (i : Nat) :
    endPosition (pastPiece l i) = endPosition l := by
  have hposition : (pastPiece l i).position =
      l.position.after ((cursor l).rest.take (pieceLength l)) := by
    rw [← textTo_pieceLength]
    rfl
  rw [endPosition, endPosition, hposition, cursor_pastPiece, Cursor.rest_skip,
    ← Position.after_append, List.take_append_drop]

theorem position_of_nil {l : Lexer engine Lexeme} (hrest : (cursor l).rest = []) :
    l.position = endPosition l := by
  rw [endPosition, hrest]
  rfl

/-- Every piece of the text is passed, so a lexer that comes to its end is at the end of the text. -/
theorem endPosition_advance {l : Lexer engine Lexeme} (h : Serving l) {left : Nat}
    (hleft : l.left ≤ left) :
    match advance regex left l with
    | (none, l') => l'.position = endPosition l
    | (some _, l') => endPosition l' = endPosition l := by
  induction left generalizing l with
  | zero => exact position_of_nil (rest_of_left_eq_zero (Nat.le_zero.1 hleft))
  | succ left ih =>
    by_cases hrest : (cursor l).rest = []
    · have hnone : l.left = 0 := by rw [left_eq, hrest, List.length_nil]
      rw [advance, step_of_left_eq_zero hnone]
      exact position_of_nil hrest
    · obtain ⟨i, hstep⟩ := step_of_ne_nil h hrest
      have hlt := left_pastPiece_lt hrest i
      rw [advance, hstep, ← endPosition_pastPiece l i]
      cases (Scanner.pieceAt (cursor l).before (cursor l).rest).1 with
      | some kind => rfl
      | none => exact ih (h.pastPiece hrest i) (by omega)

theorem position_collect {l : Lexer engine Lexeme} (h : Serving l)
    (hphase : l.phase = .running regex) {left : Nat} (hleft : l.left ≤ left) :
    (collect left l).2.position = endPosition l := by
  induction left generalizing l with
  | zero =>
    rw [collect, next_of_running hphase, Nat.le_zero.1 hleft]
    exact position_of_nil (rest_of_left_eq_zero (Nat.le_zero.1 hleft))
  | succ left ih =>
    have hspec := advance_spec h (Nat.le_refl l.left)
    have hend := endPosition_advance h (Nat.le_refl l.left)
    rw [collect, next_of_running hphase]
    rcases hresult : advance regex l.left l with ⟨_ | x, l'⟩
    · rw [hresult] at hend ⊢
      exact hend
    · rw [hresult] at hspec hend ⊢
      obtain ⟨-, hserving, hphase', hlt⟩ := hspec
      rw [← hend]
      exact ih hserving (hphase'.trans hphase) (by omega)

/-- The lexer for a C source ends at the end of the source. -/
theorem position_lexemes (source : String) :
    (lexemes source).2.position = Position.after {} source.toList :=
  position_collect (serving_running source) rfl (Nat.le_refl source.toList.length)

/-- Running the lexer for a C source to its end gives what the scanner finds in the source. -/
theorem toEnd_lexer_eq_scan (source : String) :
    (lexer source).toEnd.map Prod.fst = .ok (Scanner.lexemes source) := by
  rw [toEnd_lexer, ← fst_lexemes]
  rfl

end CStruct.Lexicon
