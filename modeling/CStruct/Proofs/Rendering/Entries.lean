import CStruct.Proofs.Parse.Effects
import CStruct.Proofs.Rendering.Adjacent

/-!
# What a scope holds

The entries of a scope stand for what was declared in it, in the order of the declarations, and for the
keywords that were used in it.
-/

namespace CStruct.Rendering

open SymbolTable Parse Parse.State

/-- From `lo` on, symbols that were dealt with in `s` are the same in `s'`. -/
structure Agrees (lo : SymbolId) (s s' : State) : Prop where
  token_le : s.token ≤ s'.token
  symbol : ∀ id, lo ≤ id → id < s.token → s'.symbol id = s.symbol id

theorem agrees_of_frame {T : SymbolId → Prop} {lo : SymbolId} {s s' : State}
    (hs : s.token < s.symbols.size) (h : Frame T s s')
    (ht : ∀ id, lo ≤ id → id < s.token → ¬T id) : Agrees lo s s' :=
  ⟨h.token_le, fun id hlo hid => h.symbol id (Nat.lt_trans hid hs) (ht id hlo hid)⟩

/-- The entry of a keyword that was used in a scope. -/
structure IsKeyword (lo : SymbolId) (s : State) (name : String) (id : SymbolId) : Prop where
  name : (cStructs.get? name).isSome
  above : lo ≤ id
  below : id < s.token
  kind : (s.symbol id).kind = .statement
  reserved : (s.symbol id).reserved = true

theorem IsKeyword.mono {lo : SymbolId} {s s' : State} {name : String} {id : SymbolId}
    (h : IsKeyword lo s name id) (hs : Agrees lo s s') : IsKeyword lo s' name id := by
  have hsymbol := hs.symbol id h.above h.below
  exact ⟨h.name, h.above, Nat.lt_of_lt_of_le h.below hs.token_le, by rw [hsymbol]; exact h.kind,
    by rw [hsymbol]; exact h.reserved⟩

/-- Entries that declare things in this order, with keywords between them. -/
inductive Holds {α : Type} (lo : SymbolId) (s : State)
    (Declares : String → SymbolId → α → Prop) : List (String × SymbolId) → List α → Prop where
  | nil : Holds lo s Declares [] []
  | keyword {name : String} {id : SymbolId} {es : List (String × SymbolId)} {as : List α}
      (hid : IsKeyword lo s name id) (h : Holds lo s Declares es as) :
      Holds lo s Declares ((name, id) :: es) as
  | declared {name : String} {id : SymbolId} {a : α} {es : List (String × SymbolId)} {as : List α}
      (hid : Declares name id a) (h : Holds lo s Declares es as) :
      Holds lo s Declares ((name, id) :: es) (a :: as)

namespace Holds

variable {α : Type} {lo : SymbolId} {s s' : State} {Declares Declares' : String → SymbolId → α → Prop}
  {es es' : List (String × SymbolId)} {as as' : List α}

theorem append (h : Holds lo s Declares es as) (h' : Holds lo s Declares es' as') :
    Holds lo s Declares (es ++ es') (as ++ as') := by
  induction h with
  | nil => exact h'
  | keyword hid _ ih => exact .keyword hid ih
  | declared hid _ ih => exact .declared hid ih

theorem mono (h : Holds lo s Declares es as) (hs : Agrees lo s s')
    (hdeclares : ∀ name id a, Declares name id a → Declares' name id a) :
    Holds lo s' Declares' es as := by
  induction h with
  | nil => exact .nil
  | keyword hid _ ih => exact .keyword (hid.mono hs) ih
  | declared hid _ ih => exact .declared (hdeclares _ _ _ hid) ih

section Key

variable {key : α → String} (hkey : ∀ name id a, Declares name id a → name = key a)
include hkey

/-- A name that is no keyword and was not declared has no entry. -/
theorem lookup_eq_none (h : Holds lo s Declares es as) {name : String}
    (hget : cStructs.get? name = none) (hnew : name ∉ as.map key) : es.lookup name = none := by
  induction h with
  | nil => rfl
  | @keyword other id es as hid h ih =>
    have hne : name ≠ other := by
      rintro rfl
      have := hid.name
      rw [hget] at this
      cases this
    rw [List.lookup_cons, beq_eq_false_iff_ne.2 hne]
    exact ih hnew
  | @declared other id a es as hid h ih =>
    rw [List.map_cons, List.mem_cons, not_or] at hnew
    have hne : name ≠ other := fun heq => hnew.1 (heq.trans (hkey _ _ _ hid))
    rw [List.lookup_cons, beq_eq_false_iff_ne.2 hne]
    exact ih hnew.2

end Key

theorem isKeyword_of_lookup (h : Holds lo s Declares es as)
    (hplain : ∀ name id a, Declares name id a → cStructs.get? name = none) {name : String}
    (hname : (cStructs.get? name).isSome) {id : SymbolId} (hid : id ∈ es.lookup name) :
    IsKeyword lo s name id := by
  induction h with
  | nil => cases hid
  | @keyword other id' es as hother h ih =>
    rw [List.lookup_cons] at hid
    by_cases heq : name = other
    · subst heq
      rw [beq_self_eq_true] at hid
      cases hid
      exact hother
    · rw [beq_eq_false_iff_ne.2 heq] at hid
      exact ih hid
  | @declared other id' a es as hother h ih =>
    have hne : name ≠ other := by
      rintro rfl
      rw [hplain _ _ _ hother] at hname
      cases hname
    rw [List.lookup_cons, beq_eq_false_iff_ne.2 hne] at hid
    exact ih hid

/-- Of the entries that `p` picks out, each stands for what was written. -/
theorem forall₂_filter {β : Type} (h : Holds lo s Declares es as) {p : SymbolId → Bool}
    {g : α → Option β} (hkeyword : ∀ name id, IsKeyword lo s name id → p id = false)
    (hdeclares : ∀ name id a, Declares name id a → p id = (g a).isSome) :
    List.Forall₂ (fun id b => ∃ name a, Declares name id a ∧ g a = some b)
      ((es.map Prod.snd).filter p) (as.filterMap g) := by
  induction h with
  | nil => exact .nil
  | @keyword name id es as hid h ih =>
    rw [List.map_cons, List.filter_cons_of_neg]
    · exact ih
    · rw [hkeyword _ _ hid]
      nofun
  | @declared name id a es as hid h ih =>
    have hp := hdeclares _ _ _ hid
    rw [List.map_cons]
    cases hg : g a with
    | none =>
      rw [hg] at hp
      rw [List.filter_cons_of_neg (by rw [hp]; nofun), List.filterMap_cons_none hg]
      exact ih
    | some b =>
      rw [hg] at hp
      rw [List.filter_cons_of_pos hp, List.filterMap_cons_some hg]
      exact .cons ⟨name, a, hid, hg⟩ ih

/-- The keyword of a statement gets an entry unless it has one. -/
theorem enterStatement {l : Lexeme} {w : List Lexeme} {Declares : State → String → SymbolId → α → Prop}
    (h : Holds lo s (Declares s) s.entries as) (hs : s.Reads (l :: w))
    (hl : (cStructs.get? l.text).isSome) (hsize : s.scope < s.scopes.size) (hlo : lo ≤ s.token)
    (hplain : ∀ name id a, Declares s name id a → cStructs.get? name = none)
    (hmono : ∀ s', Frame (s.token ≤ ·) s s' →
      ∀ name id a, Declares s name id a → Declares s' name id a) :
    Frame (s.token ≤ ·) s (s.enterStatement cStructs) ∧
      s.token < (s.enterStatement cStructs).token ∧
      Holds lo (s.enterStatement cStructs) (Declares (s.enterStatement cStructs))
        (s.enterStatement cStructs).entries as := by
  have htoken := hs.sound.token_lt
  have hold : ∀ id ∈ s.local? l.text, id < s.symbols.size ∧ (s.symbol id).reserved = true := by
    intro id hid
    have hkeyword := h.isKeyword_of_lookup hplain hl hid
    exact ⟨Nat.lt_trans hkeyword.below htoken, hkeyword.reserved⟩
  obtain ⟨hframe, hlt, hkind, hentries⟩ :=
    hs.frame_enterStatement (T := (s.token ≤ ·)) (Nat.le_refl _) hsize hold
  have hagrees : Agrees lo s (s.enterStatement cStructs) :=
    agrees_of_frame htoken hframe fun id _ hid => Nat.not_le_of_lt hid
  have hholds := h.mono hagrees (hmono _ hframe)
  refine ⟨hframe, hlt, ?_⟩
  rcases hentries with hsame | ⟨hnew, hreserved⟩
  · rw [hsame]
    exact hholds
  · rw [hnew, ← List.append_nil as]
    exact hholds.append (.keyword ⟨hl, hlo, hlt, hkind, hreserved⟩ .nil)

end Holds

end CStruct.Rendering
