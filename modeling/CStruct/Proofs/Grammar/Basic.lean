import CStruct.Lexeme
import CStruct.Parse.Definition

/-!
# The grammar of struct declarations

    program    ::=  ( ident | number | struct )*
    struct     ::=  "struct" ident ";"
                 |  "struct" ident? "{" ( ident | number | struct | members )* "}" ident? ";"
    members    ::=  type declarator ( "," declarator )* ";"
    declarator ::=  ident ( "[" number "]" )?

An `ident` is any name but `struct`, and a struct with a body has at least one of its two names.
-/

namespace CStruct

namespace Lexeme

def IsStructKeyword (l : Lexeme) : Prop := l.kind = .name ∧ l.text = Parse.State.structKeyword

def IsIdent (l : Lexeme) : Prop := l.kind = .name ∧ l.text ≠ Parse.State.structKeyword

def IsOperator (id : String) (l : Lexeme) : Prop := l.kind = .operator ∧ l.text = id

instance (l : Lexeme) : Decidable l.IsStructKeyword := inferInstanceAs (Decidable (_ ∧ _))

instance (l : Lexeme) : Decidable l.IsIdent := inferInstanceAs (Decidable (_ ∧ _))

instance (id : String) (l : Lexeme) : Decidable (l.IsOperator id) :=
  inferInstanceAs (Decidable (_ ∧ _))

end Lexeme

namespace Grammar

open Lexeme SymbolTable

inductive Nonterminal where
  | declarator
  | declarators
  | members
  | struct
  -- what stands outside of all structs, or what stands inside the body of one
  | statements (inside : Bool)

-- The words of a nonterminal.
inductive Derives : Nonterminal → List Lexeme → Prop where
  | scalar {n : Lexeme} (hn : n.IsIdent) : Derives .declarator [n]
  | array {n o d c : Lexeme} (hn : n.IsIdent) (ho : o.IsOperator "[") (hd : d.kind = .number)
      (hc : c.IsOperator "]") : Derives .declarator [n, o, d, c]
  | last {w : List Lexeme} (hw : Derives .declarator w) : Derives .declarators w
  | more {w v : List Lexeme} {c : Lexeme} (hw : Derives .declarator w) (hc : c.IsOperator ",")
      (hv : Derives .declarators v) : Derives .declarators (w ++ c :: v)
  | members {t e : Lexeme} {w : List Lexeme} (ht : t.kind = .type) (hw : Derives .declarators w)
      (he : e.IsOperator ";") : Derives .members (t :: w ++ [e])
  | forward {k n e : Lexeme} (hk : k.IsStructKeyword) (hn : n.IsIdent) (he : e.IsOperator ";") :
      Derives .struct [k, n, e]
  | struct {k o c e : Lexeme} {tag? name? : Option Lexeme} {w : List Lexeme}
      (hk : k.IsStructKeyword) (htag : ∀ n ∈ tag?, n.IsIdent) (ho : o.IsOperator openBrace)
      (hw : Derives (.statements true) w) (hc : c.IsOperator closeBrace) (hname : ∀ n ∈ name?, n.IsIdent)
      (hnamed : tag?.isSome ∨ name?.isSome) (he : e.IsOperator ";") :
      Derives .struct (k :: tag?.toList ++ o :: w ++ c :: name?.toList ++ [e])
  | nil {inside : Bool} : Derives (.statements inside) []
  | operand {inside : Bool} {n : Lexeme} {w : List Lexeme} (hn : n.IsIdent ∨ n.kind = .number)
      (hw : Derives (.statements inside) w) : Derives (.statements inside) (n :: w)
  | consStruct {inside : Bool} {v w : List Lexeme} (hv : Derives .struct v)
      (hw : Derives (.statements inside) w) : Derives (.statements inside) (v ++ w)
  | consMembers {v w : List Lexeme} (hv : Derives .members v)
      (hw : Derives (.statements true) w) : Derives (.statements true) (v ++ w)

-- The words that are whole sources.
abbrev Program (w : List Lexeme) : Prop := Derives (.statements false) w

end Grammar

end CStruct
