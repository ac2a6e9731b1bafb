import CStruct.Proofs.Rendering.Basic
import CStruct.Proofs.Parse.Reading

/-!
# Which lexemes stand side by side

In a written declaration a name stands before an operator, unless it is `struct` or `typedef`, and a
type before a name. Where a name is declared, `struct` does not stand.
-/

namespace CStruct.Rendering

open SymbolTable Lexeme

-- These names may be followed by a word.
def PrecedesWord (l : Lexeme) : Prop := l.text = "struct" ∨ l.text = "typedef"

/-- What a lexeme may stand before. -/
structure MayPrecede (a b : Lexeme) : Prop where
  type : a.kind = .type → b.kind = .name
  name : a.kind = .name → b.kind = .operator ∨ PrecedesWord a
  declared : a.Declares → ¬b.IsStructKeyword

section MayPrecede

variable {a b : Lexeme}

theorem not_isStructKeyword_of_operator (h : b.kind = .operator) : ¬b.IsStructKeyword := fun hb =>
  nomatch h.symm.trans hb.1

theorem mayPrecede_of_operator (ha : a.kind = .operator) (hb : ¬b.IsStructKeyword) :
    MayPrecede a b :=
  ⟨(fun h => nomatch ha.symm.trans h), (fun h => nomatch ha.symm.trans h), fun _ => hb⟩

theorem mayPrecede_of_ident (ha : a.kind = .name) (hb : b.kind = .operator) : MayPrecede a b :=
  ⟨(fun h => nomatch ha.symm.trans h), fun _ => .inl hb, fun _ => not_isStructKeyword_of_operator hb⟩

theorem mayPrecede_of_number (ha : a.kind = .number) (hb : b.kind = .operator) : MayPrecede a b :=
  ⟨(fun h => nomatch ha.symm.trans h), (fun h => nomatch ha.symm.trans h),
    fun _ => not_isStructKeyword_of_operator hb⟩

theorem mayPrecede_of_type (ha : a.kind = .type) (hb : b.IsIdent) : MayPrecede a b :=
  ⟨fun _ => hb.1, (fun h => nomatch ha.symm.trans h), fun _ h => hb.2 h.2⟩

theorem mayPrecede_of_struct (ha : a.IsStructKeyword) (hb : ¬b.IsStructKeyword) : MayPrecede a b :=
  ⟨(fun h => nomatch ha.1.symm.trans h), fun _ => .inr (.inl ha.2), fun _ => hb⟩

-- A semicolon ends a declaration, so anything may follow.
theorem mayPrecede_of_semicolon (ha : a.IsOperator ";") : MayPrecede a b := by
  refine ⟨(fun h => nomatch ha.1.symm.trans h), (fun h => nomatch ha.1.symm.trans h), fun h => ?_⟩
  rcases h with h | h | h | h
  · cases ha.1.symm.trans h
  · exact absurd (ha.2.symm.trans h.2) (by decide)
  · exact absurd (ha.2.symm.trans h.2) (by decide)
  · cases ha.1.symm.trans h.1

theorem mayPrecede_of_typedef (ha : a.kind = .name) (htext : a.text = "typedef") :
    MayPrecede a b := by
  refine ⟨(fun h => nomatch ha.symm.trans h), fun _ => .inr (.inr htext), fun h => ?_⟩
  rcases h with h | h | h | h
  · cases ha.symm.trans h
  · cases ha.symm.trans h.1
  · cases ha.symm.trans h.1
  · exact absurd (htext.symm.trans h.2) (by decide)

end MayPrecede

abbrev Adjoin (w : List Lexeme) : Prop := w.IsChain MayPrecede

theorem adjoin_cons {a : Lexeme} {w : List Lexeme} (h : ∀ b ∈ w.head?, MayPrecede a b)
    (hw : Adjoin w) : Adjoin (a :: w) :=
  List.isChain_cons.2 ⟨h, hw⟩

theorem adjoin_cons_cons {a b : Lexeme} {w : List Lexeme} (h : MayPrecede a b)
    (hw : Adjoin (b :: w)) : Adjoin (a :: b :: w) :=
  .cons_cons h hw

theorem adjoin_declarator {m : WrittenMember} {v w : List Lexeme} {e : Lexeme}
    (hv : WritesDeclarator m v) (he : e.kind = .operator) (hw : Adjoin (e :: w)) :
    Adjoin (v ++ e :: w) := by
  cases hv with
  | scalar hname => exact adjoin_cons_cons (mayPrecede_of_ident hname.1 he) hw
  | array hname _ ho hn hc =>
    have hnumber : ∀ {l : Lexeme}, l.kind = .number → ¬l.IsStructKeyword := fun hl h =>
      nomatch hl.symm.trans h.1
    exact adjoin_cons_cons (mayPrecede_of_ident hname.1 ho.1)
      (adjoin_cons_cons (mayPrecede_of_operator ho.1 (hnumber hn))
        (adjoin_cons_cons (mayPrecede_of_number hn hc.1)
          (adjoin_cons_cons (mayPrecede_of_operator hc.1 (not_isStructKeyword_of_operator he)) hw)))

theorem head_declarator {m : WrittenMember} {v : List Lexeme} (hv : WritesDeclarator m v) :
    ∃ rest, v = m.name :: rest ∧ m.name.IsIdent := by
  cases hv with
  | scalar hname => exact ⟨_, rfl, hname⟩
  | array hname => exact ⟨_, rfl, hname⟩

theorem head_declarators {ms : List WrittenMember} {v : List Lexeme} (hv : WritesDeclarators ms v) :
    ∃ n rest, v = n :: rest ∧ n.IsIdent := by
  cases hv with
  | last hv =>
    obtain ⟨rest, rfl, hname⟩ := head_declarator hv
    exact ⟨_, rest, rfl, hname⟩
  | more hv =>
    obtain ⟨rest, rfl, hname⟩ := head_declarator hv
    exact ⟨_, _, rfl, hname⟩

theorem adjoin_declarators {ms : List WrittenMember} {v w : List Lexeme} {e : Lexeme}
    (hv : WritesDeclarators ms v) (he : e.kind = .operator) (hw : Adjoin (e :: w)) :
    Adjoin (v ++ e :: w) := by
  induction hv with
  | last hv => exact adjoin_declarator hv he hw
  | @more m ms c v₁ v₂ hv hc hvs ih =>
    rw [List.append_assoc, List.cons_append]
    refine adjoin_declarator hv hc.1 ?_
    obtain ⟨n, rest, rfl, hn⟩ := head_declarators hvs
    exact adjoin_cons_cons (mayPrecede_of_operator hc.1 fun h => hn.2 h.2) ih

theorem adjoin_members {ms : List WrittenMember} {v w : List Lexeme} (hv : WritesMembers ms v)
    (hw : Adjoin w) : Adjoin (v ++ w) := by
  induction hv with
  | nil => exact hw
  | @cons ms others t e v₁ v₂ ht htype hv he hvs ih =>
    have hrest : Adjoin (v₁ ++ e :: (v₂ ++ w)) :=
      adjoin_declarators hv he.1 (adjoin_cons (fun _ _ => mayPrecede_of_semicolon he) ih)
    obtain ⟨n, rest, rfl, hn⟩ := head_declarators hv
    rw [List.cons_append, List.append_assoc, List.cons_append]
    exact adjoin_cons_cons (mayPrecede_of_type ht hn) hrest

-- The lexeme that a body begins with, or the brace that closes it.
theorem head_members {ms : List WrittenMember} {v w : List Lexeme} {c : Lexeme}
    (hv : WritesMembers ms v) (hc : c.kind = .operator) :
    ∀ l ∈ (v ++ c :: w).head?, ¬l.IsStructKeyword := by
  cases hv with
  | nil =>
    rintro l ⟨⟩
    exact not_isStructKeyword_of_operator hc
  | cons ht =>
    rintro l ⟨⟩ h
    cases ht.symm.trans h.1

theorem adjoin_struct {d : WrittenStruct} {v w : List Lexeme} (hv : WritesStruct d v)
    (hw : Adjoin w) : Adjoin (v ++ w) := by
  cases hv with
  | @intro typedef? k o c e v htypedef hk htag ho hv hc hname hnamed he =>
    simp only [List.append_assoc, List.cons_append, List.nil_append]
    -- from the semicolon back to the keyword, one lexeme at a time
    have hend : Adjoin (e :: w) := adjoin_cons (fun _ _ => mayPrecede_of_semicolon he) hw
    have hclose : Adjoin (c :: (d.name?.toList ++ e :: w)) := by
      cases hn : d.name? with
      | none =>
        exact adjoin_cons_cons
          (mayPrecede_of_operator hc.1 (not_isStructKeyword_of_operator he.1)) hend
      | some n =>
        have hident := hname n hn
        exact adjoin_cons_cons (mayPrecede_of_operator hc.1 fun h => hident.2 h.2)
          (adjoin_cons_cons (mayPrecede_of_ident hident.1 he.1) hend)
    have hbody : Adjoin (o :: (v ++ c :: (d.name?.toList ++ e :: w))) :=
      adjoin_cons (fun l hl => mayPrecede_of_operator ho.1 (head_members hv hc.1 l hl))
        (adjoin_members hv hclose)
    have htagged : Adjoin (k :: (d.tag?.toList ++
        o :: (v ++ c :: (d.name?.toList ++ e :: w)))) := by
      cases hn : d.tag? with
      | none =>
        exact adjoin_cons_cons (mayPrecede_of_struct hk (not_isStructKeyword_of_operator ho.1)) hbody
      | some n =>
        have hident := htag n hn
        exact adjoin_cons_cons (mayPrecede_of_struct hk fun h => hident.2 h.2)
          (adjoin_cons_cons (mayPrecede_of_ident hident.1 ho.1) hbody)
    cases ht : typedef? with
    | none => exact htagged
    | some t =>
      have := htypedef t ht
      exact adjoin_cons_cons (mayPrecede_of_typedef this.1 this.2) htagged

theorem adjoin_all {ds : List WrittenStruct} {w : List Lexeme} (hw : WritesAll ds w) : Adjoin w := by
  induction hw with
  | nil => exact .nil
  | cons hv _ ih => exact adjoin_struct hv ih

end CStruct.Rendering
