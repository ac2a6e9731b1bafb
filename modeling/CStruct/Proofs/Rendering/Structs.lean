import CStruct.Proofs.Rendering.Members

/-!
# Reading written structs

Outside of all structs, the open scope holds the structs in the order in which they were written, each
under the name that it goes by. The typedef name of a struct that has a tag has an entry of its own.
-/

namespace CStruct.Rendering

open SymbolTable Parse Parse.State Grammar

/-! ## What a source declares -/

inductive Entry where
  | struct (n : Lexeme) (d : WrittenStruct)
  | typedefName (n : Lexeme)

namespace Entry

def key : Entry → String
  | .struct n _ => n.text
  | .typedefName n => n.text

def struct? : Entry → Option WrittenStruct
  | .struct _ d => some d
  | .typedefName _ => none

end Entry

def WrittenStruct.entries (d : WrittenStruct) : List Entry :=
  (d.goesBy?.map (.struct · d)).toList ++ (d.alias?.map .typedefName).toList

def named (x : Symbol) : String × Span := (x.value, x.span)

/-- What is known of a struct that has been read. -/
structure IsStruct (s : State) (name : String) (id : SymbolId) (n : Lexeme) (d : WrittenStruct) :
    Prop where
  goesBy : d.goesBy? = some n
  key : name = n.text
  plain : cStructs.get? name = none
  below : id < s.token
  value : (s.symbol id).value = n.text
  span : (s.symbol id).span = n.span
  kind : (s.symbol id).kind = .name
  type : ∃ k < s.token, (s.symbol id).declaredType? = some k ∧ (s.symbol k).value = structKeyword
  isAlias : (s.symbol id).isAlias = false
  typedefName : (s.symbol id).alias?.map (fun a => named (s.symbol a)) =
    d.alias?.map fun l => (l.text, l.span)
  typedefName_mem : ∀ a ∈ (s.symbol id).alias?, a < s.token
  body : ∃ b lo, (s.symbol id).innerScope? = some b ∧ HasMembers lo s b d.members

structure IsTypedefName (s : State) (name : String) (id : SymbolId) (n : Lexeme) : Prop where
  key : name = n.text
  plain : cStructs.get? name = none
  below : id < s.token
  kind : (s.symbol id).kind = .name
  isAlias : (s.symbol id).isAlias = true

def IsEntry (s : State) (name : String) (id : SymbolId) : Entry → Prop
  | .struct n d => IsStruct s name id n d
  | .typedefName n => IsTypedefName s name id n

variable {keyword : SymbolId} {s s' : State} {d : WrittenStruct} {as : List Entry}
  {v w : List Lexeme} {name : String} {id : SymbolId}

theorem IsStruct.mono {n : Lexeme} (h : IsStruct s name id n d) (hs : s.token < s.symbols.size)
    (hframe : Frame (s.token ≤ ·) s s') : IsStruct s' name id n d := by
  have hsame {i : SymbolId} (hi : i < s.token) : s'.symbol i = s.symbol i :=
    hframe.symbol i (Nat.lt_trans hi hs) (Nat.not_le_of_lt hi)
  have hle := hframe.token_le
  obtain ⟨k, hk, htype, hvalue⟩ := h.type
  obtain ⟨b, lo, hinner, hbody⟩ := h.body
  exact
    { goesBy := h.goesBy
      key := h.key
      plain := h.plain
      below := Nat.lt_of_lt_of_le h.below hle
      value := by rw [hsame h.below]; exact h.value
      span := by rw [hsame h.below]; exact h.span
      kind := by rw [hsame h.below]; exact h.kind
      type := ⟨k, Nat.lt_of_lt_of_le hk hle, by rw [hsame h.below]; exact htype,
        by rw [hsame hk]; exact hvalue⟩
      isAlias := by rw [hsame h.below]; exact h.isAlias
      typedefName := by
        rw [hsame h.below, ← h.typedefName]
        cases ha : (s.symbol id).alias? with
        | none => rfl
        | some a => rw [Option.map_some, Option.map_some, hsame (h.typedefName_mem a ha)]
      typedefName_mem := by
        rw [hsame h.below]
        exact fun a ha => Nat.lt_of_lt_of_le (h.typedefName_mem a ha) hle
      body := ⟨b, lo, by rw [hsame h.below]; exact hinner,
        hbody.mono hs hframe fun _ _ hi => Nat.not_le_of_lt hi⟩ }

theorem IsTypedefName.mono {n : Lexeme} (h : IsTypedefName s name id n)
    (hs : s.token < s.symbols.size) (hframe : Frame (s.token ≤ ·) s s') :
    IsTypedefName s' name id n := by
  have hsame := hframe.symbol id (Nat.lt_trans h.below hs) (Nat.not_le_of_lt h.below)
  exact ⟨h.key, h.plain, Nat.lt_of_lt_of_le h.below hframe.token_le, by rw [hsame]; exact h.kind,
    by rw [hsame]; exact h.isAlias⟩

theorem isEntry_mono (hs : s.token < s.symbols.size) (hframe : Frame (s.token ≤ ·) s s') :
    ∀ name id a, IsEntry s name id a → IsEntry s' name id a
  | _, _, .struct _ _, h => IsStruct.mono h hs hframe
  | _, _, .typedefName _, h => IsTypedefName.mono h hs hframe

theorem key_of_isEntry : ∀ name id a, IsEntry s name id a → name = a.key
  | _, _, .struct _ _, h => IsStruct.key h
  | _, _, .typedefName _, h => IsTypedefName.key h

theorem plain_of_isEntry : ∀ name id a, IsEntry s name id a → cStructs.get? name = none
  | _, _, .struct _ _, h => IsStruct.plain h
  | _, _, .typedefName _, h => IsTypedefName.plain h

/-- The open scope holds these structs and typedef names. -/
structure Root (s : State) (as : List Entry) : Prop where
  size : s.scope < s.scopes.size
  holds : Holds 0 s (IsEntry s) s.entries as

/-- New entries go behind the others. -/
theorem Root.add (h : Root s as) (hs : s.token < s.symbols.size) (hframe : Frame (s.token ≤ ·) s s')
    {es : List (String × SymbolId)} {as' : List Entry} (hentries : s'.entries = s.entries ++ es)
    (hnew : Holds 0 s' (IsEntry s') es as') : Root s' (as ++ as') where
  size := by
    rw [hframe.scope]
    exact Nat.lt_of_lt_of_le h.size hframe.scopes_le
  holds := by
    have hagrees : Agrees 0 s s' :=
      agrees_of_frame hs hframe fun id _ hid => Nat.not_le_of_lt hid
    rw [hentries]
    exact (h.holds.mono hagrees (isEntry_mono hs hframe)).append hnew

theorem Root.local?_eq_none (h : Root s as) (hget : cStructs.get? name = none)
    (hnew : name ∉ as.map Entry.key) : s.local? name = none :=
  h.holds.lookup_eq_none key_of_isEntry hget hnew

theorem isStruct_of_declaration (a? : Option SymbolId) {n k : Lexeme} {b : ScopeId} {lo : SymbolId}
    (hgoesBy : d.goesBy? = some n) (hid : id < s.token) (hplain : cStructs.get? n.text = none)
    (hknows : s.Knows id n) (hkind : (s.symbol id).kind = .name)
    (hdeclaration : (s.symbol id).declaration? =
      some { declaredType := keyword, innerScope? := some b, alias? := a? })
    (hkeyword : s.Knows keyword k) (hk : k.IsStructKeyword) (hlt : keyword < s.token)
    (halias : a?.map (fun a => named (s.symbol a)) = d.alias?.map fun l => (l.text, l.span))
    (ha : ∀ a ∈ a?, a < s.token) (hbody : HasMembers lo s b d.members) :
    IsStruct s n.text id n d where
  goesBy := hgoesBy
  key := rfl
  plain := hplain
  below := hid
  value := hknows.spells.value
  span := hknows.spells.span
  kind := hkind
  type := by
    refine ⟨keyword, hlt, ?_, hkeyword.spells.value.trans hk.2⟩
    rw [Symbol.declaredType?, hdeclaration]
    rfl
  isAlias := by
    rw [Symbol.isAlias, hdeclaration]
    rfl
  typedefName := by
    rw [Symbol.alias?, hdeclaration]
    exact halias
  typedefName_mem := by
    rw [Symbol.alias?, hdeclaration]
    exact ha
  body := by
    refine ⟨b, lo, ?_, hbody⟩
    rw [Symbol.innerScope?, hdeclaration]
    rfl

/-! ## The body -/

-- The part of a struct declaration behind its closing brace.
def afterBody (keyword : SymbolId) (tag? : Option SymbolId) (b : ScopeId) (s : State) :
    Option SymbolId × State :=
  let s := tag?.elim s fun tag => s.setBody tag b
  let (name?, s) := typedefName cStructs keyword tag? b s
  (name?, (if name?.isNone then s.report keyword .anonymousStruct else s).expect cStructs ";")

theorem body_openScope (s : State) : Body s.token s.openScope [] where
  size := by
    show s.scopes.size < (s.scopes.push _).size
    rw [Array.size_push]
    exact Nat.lt_succ_self _
  below := Nat.le_refl _
  holds := by
    have hempty : s.openScope.entries = [] := by
      show ((s.scopes.push _).getD s.scopes.size default).definitions.entries = []
      rw [Array.getD_eq_getD_getElem?, Array.getElem?_push_size]
      rfl
    rw [hempty]
    exact .nil

theorem structBody_of_written {readBody : State → Option State} {fuel : Nat}
    (hread : readBody = bodyReader cStructs fuel)
    {tag? goesBy? : Option SymbolId} {o c : Lexeme} (h : s.Reads (o :: (v ++ c :: w)))
    (ho : o.IsOperator openBrace) (hv : WritesMembers d.members v) (hc : c.IsOperator closeBrace)
    (hnew : (d.members.map memberKey).Nodup) (hsize : s.scope < s.scopes.size)
    (hs : structBody cStructs readBody keyword tag? s = some (goesBy?, s')) :
    ∃ b lo s₂, s.Passes s₂ w ∧ Frame (s.token ≤ ·) s s₂ ∧ s₂.entries = s.entries ∧
      s.token < lo ∧ lo ≤ s₂.token ∧ HasMembers lo s₂ b d.members ∧
      afterBody keyword tag? b s₂ = (goesBy?, s') := by
  subst hread
  obtain ⟨s₁, hmap, hs'⟩ := Option.map_eq_some_iff.1 hs
  obtain ⟨names, hs₁⟩ := bodyReader_cases hmap
  clear hmap
  -- `s₀` is the state behind the opening brace, `s₁` the one behind the members
  rw [h.expect_eq (by decide) ho] at hs₁ hs'
  obtain ⟨hframe₁, hentries₁, hlt₁⟩ := h.frame_advance (T := (s.token ≤ ·))
  have h₁ := h.advance
  generalize s.advance cStructs = s₀ at *
  have hclose : ∀ l ∈ (c :: w).head?, l.IsOperator closeBrace := by
    rintro l ⟨⟩
    exact hc
  have hsize₀ : s₀.scope < s₀.scopes.size := by
    rw [hframe₁.scope]
    exact Nat.lt_of_lt_of_le hsize hframe₁.scopes_le
  have hinside := h₁.reads.openScope
  obtain ⟨hframe₂, hbody₂⟩ := body_statements hv hinside hclose rfl hs₁ (body_openScope s₀) hnew
  have h₂ := passes_statements (derives_members hv) hinside hclose rfl hs₁
  obtain ⟨hframe₃, hentries₃, hscope₃, hlt₃⟩ := frame_block hframe₂ h₂.keeps.outer hsize₀
  have h₃ := passes_block h₂
  -- closing the scope leaves the token and all symbols
  have htoken₃ : s₁.closeScope.token = s₁.token := by
    rw [State.closeScope]
    split <;> rfl
  have hsymbol₃ (i : SymbolId) : s₁.closeScope.symbol i = s₁.symbol i := by
    rw [State.closeScope]
    split <;> rfl
  obtain ⟨hframe₄, hentries₄, hlt₄⟩ := h₃.reads.frame_advance (T := (s.token ≤ ·))
  have h₄ := h₃.trans h₃.reads.advance
  have hne : s₀.scopes.size ≠ s₁.closeScope.scope := by
    rw [hframe₃.scope]
    exact Nat.ne_of_gt hsize₀
  -- passing the closing brace changes no symbol of the body
  have hagrees : Agrees s₀.token s₁ (s₁.closeScope.advance cStructs) := by
    refine ⟨by rw [← htoken₃]; exact Nat.le_of_lt hlt₄, fun i _ hi => ?_⟩
    rw [(h₃.reads.passed ?_).2, hsymbol₃]
    exact Nat.lt_trans (by rw [htoken₃]; exact hi) h₃.reads.sound.token_lt
  rw [structEnd, h₃.reads.expect_eq (by decide) hc] at hs'
  refine ⟨s₀.scopes.size, s₀.token, s₁.closeScope.advance cStructs, h₁.trans h₄, ?_, ?_, hlt₁, ?_,
    ⟨?_, ?_, ?_⟩, hs'⟩
  · exact (hframe₁.trans (hframe₃.mono fun i hi => Nat.le_trans (Nat.le_of_lt hlt₁) hi)).trans hframe₄
  · rw [hentries₄, hentries₃, hentries₁]
  · exact Nat.le_trans hframe₃.token_le (Nat.le_of_lt hlt₄)
  · exact Nat.lt_of_lt_of_le hlt₃ hframe₄.scopes_le
  · rw [hframe₄.scope]
    exact hne
  · rw [hframe₄.scopeAt _ hlt₃ hne, hscope₃]
    exact hbody₂.holds.mono hagrees fun _ _ _ hm => hm.mono hagrees

/-! ## The names -/

theorem entries_eq_cons {n : Lexeme} (hgoesBy : d.goesBy? = some n) :
    d.entries = .struct n d :: (d.alias?.map Entry.typedefName).toList := by
  rw [WrittenStruct.entries, hgoesBy]
  rfl

section AfterBody

variable {tag : SymbolId} {b : ScopeId} {t n e : Lexeme}

theorem afterBody_tag (h : s.Reads (e :: w)) (he : e.IsOperator ";") (htag : s.Knows tag t) :
    afterBody keyword (some tag) b s = (some tag, (s.setBody tag b).expect cStructs ";") := by
  have h₁ := (h.modifyDeclaration htag.plain ({ · with innerScope? := some b })).reads
  have hkind : ¬(s.setBody tag b).current.kind = .name := h₁.not_name_of_operator he.1
  unfold afterBody typedefName
  rw [Option.elim_some]
  dsimp only
  rw [if_neg hkind]
  rfl

theorem afterBody_tagAndName (h : s.Reads (n :: w)) (hn : n.kind = .name) (htag : s.Knows tag t) :
    afterBody keyword (some tag) b s =
      (some tag, (((s.setBody tag b).defineAlias s.token keyword tag).advance cStructs).expect
        cStructs ";") := by
  have h₁ := (h.modifyDeclaration htag.plain ({ · with innerScope? := some b })).reads
  have hkind : (s.setBody tag b).current.kind = .name := h₁.kind_of_name hn
  unfold afterBody typedefName
  rw [Option.elim_some]
  dsimp only
  rw [if_pos hkind]
  rfl

theorem afterBody_name (h : s.Reads (n :: w)) (hn : n.kind = .name) :
    afterBody keyword none b s =
      (some s.token, (((s.define s.token keyword).setBody s.token b).advance cStructs).expect
        cStructs ";") := by
  unfold afterBody typedefName
  rw [Option.elim_none]
  dsimp only
  rw [if_pos (h.kind_of_name hn)]
  rfl

end AfterBody

/-! ## Structs with a tag -/

/-- A tag is passed, and declared. -/
theorem frame_tag {t : Lexeme} (keyword : SymbolId) (h : s.Reads (t :: w)) (ht : t.IsIdent)
    (hsize : s.scope < s.scopes.size) (hnew : s.local? t.text = none) :
    s.Passes ((s.advance cStructs).define s.token keyword) w ∧
      Frame (s.token ≤ ·) s ((s.advance cStructs).define s.token keyword) ∧
      ((s.advance cStructs).define s.token keyword).entries = s.entries ++ [(t.text, s.token)] ∧
      s.token < ((s.advance cStructs).define s.token keyword).token ∧
      (((s.advance cStructs).define s.token keyword).symbol s.token).kind = .name ∧
      (((s.advance cStructs).define s.token keyword).symbol s.token).declaration? =
        some { declaredType := keyword } := by
  have hget := (h.ordinary.each t List.mem_cons_self).get?_of_ident ht
  obtain ⟨hframe₁, hentries₁, hlt₁⟩ := h.frame_advance (T := (s.token ≤ ·))
  have h₁ := h.advance
  have hknows₁ := h₁.keeps.knows _ t h.knows_token
  have hvalue := hknows₁.spells.value
  have hsize₁ : (s.advance cStructs).scope < (s.advance cStructs).scopes.size := by
    rw [hframe₁.scope]
    exact Nat.lt_of_lt_of_le hsize hframe₁.scopes_le
  have hnew₁ : (s.advance cStructs).local? ((s.advance cStructs).symbol s.token).value = none := by
    rw [hvalue, local?_eq_lookup, hentries₁]
    exact hnew
  obtain ⟨hframe₂, hentries₂, hsymbol₂⟩ := frame_define (T := (s.token ≤ ·)) keyword
    (Nat.le_refl _) hknows₁.plain.lt hsize₁ hnew₁
  refine ⟨h₁.trans (h₁.reads.define hknows₁ ht hget
    (fun heq => absurd heq (h.passed h.sound.token_lt).1) keyword), hframe₁.trans hframe₂, ?_, ?_,
    by rw [hsymbol₂]; rfl, by rw [hsymbol₂]; rfl⟩
  · rw [hentries₂, hvalue, hentries₁]
  · rw [token_define]
    exact hlt₁

/-- A struct with a tag has been read from the tag in `s` to the end of its body in `s'`. -/
structure TagRead (keyword tag : SymbolId) (t : Lexeme) (b : ScopeId) (d : WrittenStruct)
    (s s' : State) : Prop where
  frame : Frame (tag ≤ ·) s s'
  entries : s'.entries = s.entries ++ [(t.text, tag)]
  lt : tag < s'.token
  knows : s'.Knows tag t
  kind : (s'.symbol tag).kind = .name
  declaration : (s'.symbol tag).declaration? = some { declaredType := keyword }
  body : ∃ lo, tag < lo ∧ HasMembers lo s' b d.members

theorem tagRead_of_written {readBody : State → Option State} {fuel : Nat}
    (hread : readBody = bodyReader cStructs fuel)
    {goesBy? : Option SymbolId} {t o c : Lexeme} (hsize : s.scope < s.scopes.size)
    (h : s.Reads (t :: o :: (v ++ c :: w))) (ht : t.IsIdent) (ho : o.IsOperator openBrace)
    (hv : WritesMembers d.members v) (hc : c.IsOperator closeBrace) (hnew : s.local? t.text = none)
    (hmembers : (d.members.map memberKey).Nodup)
    (hs : structBody cStructs readBody keyword (some s.token)
      ((s.advance cStructs).define s.token keyword) = some (goesBy?, s')) :
    ∃ b s₁, TagRead keyword s.token t b d s s₁ ∧ s₁.Reads w ∧
      afterBody keyword (some s.token) b s₁ = (goesBy?, s') := by
  obtain ⟨h₁, hframe₁, hentries₁, hlt₁, hkind₁, hdeclaration₁⟩ := frame_tag keyword h ht hsize hnew
  generalize (s.advance cStructs).define s.token keyword = s₁ at *
  have hsize₁ : s₁.scope < s₁.scopes.size := by
    rw [hframe₁.scope]
    exact Nat.lt_of_lt_of_le hsize hframe₁.scopes_le
  obtain ⟨b, lo, s₂, h₂, hframe₂, hentries₂, hlo, hlo', hbody, hs₂⟩ :=
    structBody_of_written hread h₁.reads ho hv hc hmembers hsize₁ hs
  -- the tag stands before the body, which leaves it alone
  have hsymbol : s₂.symbol s.token = s₁.symbol s.token :=
    hframe₂.symbol s.token (Nat.lt_trans hlt₁ h₁.reads.sound.token_lt) (Nat.not_le_of_lt hlt₁)
  have hbefore : s.token < lo := Nat.lt_trans hlt₁ hlo
  exact ⟨b, s₂,
    { frame := hframe₁.trans (hframe₂.mono fun i hi => Nat.le_trans (Nat.le_of_lt hlt₁) hi)
      entries := hentries₂.trans hentries₁
      lt := Nat.lt_of_lt_of_le hbefore hlo'
      knows := h₂.keeps.knows _ t (h₁.keeps.knows _ t h.knows_token)
      kind := by rw [hsymbol, hkind₁]
      declaration := by rw [hsymbol, hdeclaration₁]
      body := ⟨lo, hbefore, hbody⟩ }, h₂.reads, hs₂⟩

namespace TagRead

variable {tag : SymbolId} {b : ScopeId} {s₁ : State} {t k : Lexeme}

/-- What follows the body changes the tag and nothing else that stood before. -/
theorem whole (h : TagRead keyword tag t b d s s₁)
    (hframe : Frame (fun i => i = tag ∨ s₁.token ≤ i) s₁ s') : Frame (tag ≤ ·) s s' := by
  refine h.frame.trans (hframe.mono ?_)
  rintro i (rfl | hle)
  · exact Nat.le_refl _
  · exact Nat.le_trans (Nat.le_of_lt h.lt) hle

theorem isStruct (h : TagRead keyword tag t b d s s₁) (a? : Option SymbolId)
    (hframe : Frame (fun i => i = tag ∨ s₁.token ≤ i) s₁ s') (hs₁ : s₁.token < s₁.symbols.size)
    (hgoesBy : d.goesBy? = some t) (hget : cStructs.get? t.text = none)
    (hknows : s'.Knows tag t) (hkeyword : s'.Knows keyword k) (hk : k.IsStructKeyword)
    (hlt : keyword < s'.token) (hsymbol : s'.symbol tag =
      { s₁.symbol tag with
        declaration? := (s₁.symbol tag).declaration?.map
          ({ · with innerScope? := some b, alias? := a? }) })
    (ha : a?.map (fun a => named (s'.symbol a)) = d.alias?.map fun l => (l.text, l.span))
    (ha' : ∀ a ∈ a?, a < s'.token) : IsStruct s' t.text tag t d := by
  obtain ⟨lo, hlo, hbody⟩ := h.body
  refine isStruct_of_declaration a? hgoesBy (Nat.lt_of_lt_of_le h.lt hframe.token_le) hget hknows
    (by rw [hsymbol]; exact h.kind) (by rw [hsymbol, h.declaration]; rfl) hkeyword hk hlt ha ha'
    (hbody.mono hs₁ hframe ?_)
  -- the tag stands before the body, and what follows stands behind it
  rintro i hi hi' (rfl | hle)
  · exact absurd (Nat.lt_of_lt_of_le hlo hi) (Nat.lt_irrefl _)
  · exact absurd hi' (Nat.not_lt_of_le hle)

end TagRead

/-- A struct with a tag. -/
theorem root_tagged {readBody : State → Option State} {fuel : Nat}
    (hread : readBody = bodyReader cStructs fuel)
    {goesBy? : Option SymbolId} {t o c e k : Lexeme} (hroot : Root s as)
    (h : s.Reads (t :: o :: (v ++ c :: (d.name?.toList ++ e :: w)))) (hd : d.tag? = some t)
    (ht : t.IsIdent) (ho : o.IsOperator openBrace) (hv : WritesMembers d.members v)
    (hc : c.IsOperator closeBrace) (hname : ∀ n ∈ d.name?, n.IsIdent) (he : e.IsOperator ";")
    (hkeyword : s.Knows keyword k) (hk : k.IsStructKeyword) (hlt : keyword < s.token)
    (hnew : ((as ++ d.entries).map Entry.key).Nodup) (hmembers : (d.members.map memberKey).Nodup)
    (hpasses : s.Passes s' w)
    (hs : structBody cStructs readBody keyword (some s.token)
      ((s.advance cStructs).define s.token keyword) = some (goesBy?, s')) :
    Frame (s.token ≤ ·) s s' ∧ Root s' (as ++ d.entries) := by
  have hgoesBy : d.goesBy? = some t := by rw [WrittenStruct.goesBy?, hd]; rfl
  have halias : d.alias? = d.name? := by rw [WrittenStruct.alias?, hd]; rfl
  have htoken := h.sound.token_lt
  have hget := (h.ordinary.each t List.mem_cons_self).get?_of_ident ht
  have hknows := hpasses.keeps.knows _ t h.knows_token
  have hkeyword' := hpasses.keeps.knows keyword k hkeyword
  rw [entries_eq_cons hgoesBy, halias] at hnew ⊢
  rw [List.map_append, List.nodup_append] at hnew
  obtain ⟨-, hnodup, hdisjoint⟩ := hnew
  -- up to the name behind the body, both kinds of struct are read alike
  obtain ⟨b, s₁, htag, hread₁, hs₁⟩ := tagRead_of_written hread hroot.size h ht ho hv hc
    (hroot.local?_eq_none hget fun hmem => hdisjoint _ hmem _ List.mem_cons_self rfl) hmembers hs
  have hsound₁ := hread₁.sound.token_lt
  cases hn : d.name? with
  | none =>
    rw [hn] at hread₁
    have hread₁ : s₁.Reads (e :: w) := hread₁
    rw [afterBody_tag hread₁ he htag.knows] at hs₁
    obtain ⟨rfl, rfl⟩ := Prod.mk.inj hs₁
    obtain ⟨hframe, hentries, hsymbol⟩ := frame_endTag b hread₁ he htag.knows
    have hwhole := htag.whole hframe
    refine ⟨hwhole, hroot.add htoken hwhole (hentries.trans htag.entries) (.declared ?_ .nil)⟩
    refine htag.isStruct none hframe hsound₁ hgoesBy hget hknows hkeyword' hk
      (Nat.lt_of_lt_of_le hlt hwhole.token_le) ?_ (by rw [halias, hn]; rfl) nofun
    rw [hsymbol, htag.declaration]
    rfl
  | some n =>
    rw [hn] at hread₁ hnodup hdisjoint
    have hread₁ : s₁.Reads (n :: e :: w) := hread₁
    have hident := hname n hn
    have hget' := (hread₁.ordinary.each n List.mem_cons_self).get?_of_ident hident
    rw [afterBody_tagAndName hread₁ hident.1 htag.knows] at hs₁
    have hs₁ := congrArg Prod.snd hs₁
    have hne : n.text ≠ t.text := fun heq =>
      (List.nodup_cons.1 hnodup).1 (List.mem_singleton.2 heq.symm)
    -- neither the structs before nor the tag go by the typedef name
    have hfresh : s₁.local? n.text = none := by
      rw [local?_eq_lookup, htag.entries, List.lookup_append, ← local?_eq_lookup,
        hroot.local?_eq_none hget' fun hmem =>
          hdisjoint _ hmem _ (List.mem_cons_of_mem _ List.mem_cons_self) rfl,
        List.lookup_cons, beq_eq_false_iff_ne.2 hne]
      rfl
    have hsize₁ : s₁.scope < s₁.scopes.size := by
      rw [htag.frame.scope]
      exact Nat.lt_of_lt_of_le hroot.size htag.frame.scopes_le
    obtain ⟨hframe, hknowsn, hentries, hltn, hkindn, haliasn, hsymbol⟩ :=
      frame_endTagAndName hread₁ hident he htag.knows htag.lt hsize₁ hfresh hs₁
    rw [htag.entries, List.append_assoc] at hentries
    have hwhole := htag.whole hframe
    refine ⟨hwhole, hroot.add htoken hwhole hentries (.declared ?_
      (.declared ⟨rfl, hget', hltn, hkindn, haliasn⟩ .nil))⟩
    refine htag.isStruct (some s₁.token) hframe hsound₁ hgoesBy hget hknows hkeyword' hk
      (Nat.lt_of_lt_of_le hlt hwhole.token_le) hsymbol ?_ ?_
    · rw [halias, hn, Option.map_some, Option.map_some, named, hknowsn.spells.value,
        hknowsn.spells.span]
    · rintro _ ⟨⟩
      exact hltn

/-- A struct without a tag goes by its typedef name. -/
theorem root_untagged {readBody : State → Option State} {fuel : Nat}
    (hread : readBody = bodyReader cStructs fuel)
    {goesBy? : Option SymbolId} {n o c e k : Lexeme} (hroot : Root s as)
    (h : s.Reads (o :: (v ++ c :: n :: e :: w))) (hd : d.tag? = none) (hname : d.name? = some n)
    (hn : n.IsIdent) (ho : o.IsOperator openBrace) (hv : WritesMembers d.members v)
    (hc : c.IsOperator closeBrace) (he : e.IsOperator ";") (hkeyword : s.Knows keyword k)
    (hk : k.IsStructKeyword) (hlt : keyword < s.token)
    (hnew : ((as ++ d.entries).map Entry.key).Nodup) (hmembers : (d.members.map memberKey).Nodup)
    (hpasses : s.Passes s' w)
    (hs : structBody cStructs readBody keyword none s = some (goesBy?, s')) :
    Frame (s.token ≤ ·) s s' ∧ Root s' (as ++ d.entries) := by
  have hgoesBy : d.goesBy? = some n := by rw [WrittenStruct.goesBy?, hd, hname]; rfl
  have halias : d.alias? = none := by rw [WrittenStruct.alias?, hd]; rfl
  have htoken := h.sound.token_lt
  rw [entries_eq_cons hgoesBy, halias] at hnew ⊢
  rw [List.map_append, List.nodup_append] at hnew
  obtain ⟨-, -, hdisjoint⟩ := hnew
  obtain ⟨b, lo, s₃, h₃, hframe₃, hentries₃, hlo, hlo', hbody, hs₃⟩ :=
    structBody_of_written hread h ho hv hc hmembers hroot.size hs
  have hread₃ := h₃.reads
  have hget := (hread₃.ordinary.each n List.mem_cons_self).get?_of_ident hn
  have hsize₃ : s₃.scope < s₃.scopes.size := by
    rw [hframe₃.scope]
    exact Nat.lt_of_lt_of_le hroot.size hframe₃.scopes_le
  rw [afterBody_name hread₃ hn.1] at hs₃
  have hs₃ := congrArg Prod.snd hs₃
  have hfresh₃ : s₃.local? n.text = none := by
    rw [local?_eq_lookup, hentries₃, ← local?_eq_lookup]
    exact hroot.local?_eq_none hget fun hmem => hdisjoint _ hmem _ List.mem_cons_self rfl
  obtain ⟨hframe, hknows, hentries, hlt₃, hsymbol⟩ := frame_endName hread₃ hn he hsize₃ hfresh₃ hs₃
  rw [hentries₃] at hentries
  have hwhole := frame_trans hframe₃ hframe
  refine ⟨hwhole, hroot.add htoken hwhole hentries (.declared ?_ .nil)⟩
  refine isStruct_of_declaration none hgoesBy hlt₃ hget hknows (by rw [hsymbol]; rfl)
    (by rw [hsymbol]; rfl) (hpasses.keeps.knows keyword k hkeyword) hk
    (Nat.lt_of_lt_of_le hlt hwhole.token_le) (by rw [halias]; rfl) nofun
    (hbody.mono hread₃.sound.token_lt hframe fun i _ hi => Nat.not_le_of_lt hi)

/-! ## Statements -/

theorem derives_struct {k o c e : Lexeme} (hk : k.IsStructKeyword)
    (htag : ∀ n ∈ d.tag?, n.IsIdent) (ho : o.IsOperator openBrace)
    (hv : WritesMembers d.members v) (hc : c.IsOperator closeBrace)
    (hname : ∀ n ∈ d.name?, n.IsIdent) (hnamed : d.tag?.isSome ∨ d.name?.isSome)
    (he : e.IsOperator ";") :
    Derives .struct (k :: (d.tag?.toList ++ o :: (v ++ c :: (d.name?.toList ++ [e])))) := by
  have := Derives.struct hk htag ho (derives_members hv) hc hname hnamed he
  simpa using this

/-- A struct, from its keyword on. -/
theorem root_struct {fuel : Nat} {name? : Option SymbolId} {k o c e : Lexeme} (hroot : Root s as)
    (h : s.Reads (k :: (d.tag?.toList ++ o :: (v ++ c :: (d.name?.toList ++ e :: w)))))
    (hk : k.IsStructKeyword) (htag : ∀ n ∈ d.tag?, n.IsIdent) (ho : o.IsOperator openBrace)
    (hv : WritesMembers d.members v) (hc : c.IsOperator closeBrace)
    (hname : ∀ n ∈ d.name?, n.IsIdent) (hnamed : d.tag?.isSome ∨ d.name?.isSome)
    (he : e.IsOperator ";") (hnew : ((as ++ d.entries).map Entry.key).Nodup)
    (hmembers : (d.members.map memberKey).Nodup)
    (hs : statement cStructs (fun s => (statements cStructs fuel s).map Prod.snd) s =
      some (name?, s')) :
    s.Passes s' w ∧ Frame (s.token ≤ ·) s s' ∧ Root s' (as ++ d.entries) := by
  have hderives := derives_struct hk htag ho hv hc hname hnamed he
  have hget : (cStructs.get? k.text).isSome := by
    rw [hk.2]
    decide
  rw [statement_of_struct h hk] at hs
  have h₁ := h.enterStatement (.inl hk.1)
  obtain ⟨hframe₁, hlt₁, hholds₁⟩ := hroot.holds.enterStatement h hget hroot.size (Nat.zero_le _)
    plain_of_isEntry fun _ => isEntry_mono h.sound.token_lt
  have hkeyword := h₁.keeps.knows _ k h.knows_token
  have hsize₁ : (s.enterStatement cStructs).scope < (s.enterStatement cStructs).scopes.size := by
    rw [hframe₁.scope]
    exact Nat.lt_of_lt_of_le hroot.size hframe₁.scopes_le
  -- from here on the keyword has been passed
  generalize s.enterStatement cStructs = s₁ at *
  have hroot₁ : Root s₁ as := ⟨hsize₁, hholds₁⟩
  have hread₁ := h₁.reads
  have hpasses : s₁.Passes s' w := by
    refine passes_structDeclaration (passes_bodyReader fuel) hderives ?_ hs
    simpa using hread₁
  have hreads : Frame (s₁.token ≤ ·) s₁ s' ∧ Root s' (as ++ d.entries) := by
    -- what comes behind the keyword tells the two kinds of struct apart
    cases hd : d.tag? with
    | none =>
      obtain ⟨n, hn⟩ := Option.isSome_iff_exists.1 (hnamed.resolve_left (by rw [hd]; nofun))
      rw [hd, hn] at hread₁
      have hread₁ : s₁.Reads (o :: (v ++ c :: n :: e :: w)) := hread₁
      rw [structDeclaration_of_not_name (hread₁.not_name_of_operator ho.1),
        if_neg (hread₁.not_semicolon_of_brace ho)] at hs
      exact root_untagged rfl hroot₁ hread₁ hd hn (hname n hn) ho hv hc he hkeyword hk hlt₁ hnew
        hmembers hpasses hs
    | some t =>
      rw [hd] at hread₁
      have hread₁ : s₁.Reads (t :: o :: (v ++ c :: (d.name?.toList ++ e :: w))) := hread₁
      have ht := htag t hd
      rw [structDeclaration_of_name (hread₁.kind_of_name ht.1),
        if_neg (hread₁.advance.reads.not_semicolon_of_brace ho)] at hs
      exact root_tagged rfl hroot₁ hread₁ hd ht ho hv hc hname he hkeyword hk hlt₁ hnew hmembers
        hpasses hs
  exact ⟨h₁.trans hpasses, frame_trans hframe₁ hreads.1, hreads.2⟩

theorem Root.advance {l : Lexeme} (h : Root s as) (hs : s.Reads (l :: w)) :
    Frame (s.token ≤ ·) s (s.advance cStructs) ∧ Root (s.advance cStructs) as := by
  obtain ⟨hframe, hentries, -⟩ := hs.frame_advance (T := (s.token ≤ ·))
  have hroot : Root (s.advance cStructs) (as ++ []) :=
    @Root.add _ _ _ h hs.sound.token_lt hframe [] [] (by rw [hentries, List.append_nil]) .nil
  rw [List.append_nil] at hroot
  exact ⟨hframe, hroot⟩

/-- All structs of a source. -/
theorem root_statements {fuel : Nat} {names : List SymbolId} {ds : List WrittenStruct}
    (hw : WritesAll ds w) (h : s.Reads w) (hs : statements cStructs fuel s = some (names, s'))
    (hroot : Root s as) (hnew : ((as ++ ds.flatMap WrittenStruct.entries).map Entry.key).Nodup)
    (hmembers : ∀ d ∈ ds, (d.members.map memberKey).Nodup) :
    s.Passes s' [] ∧ Frame (s.token ≤ ·) s s' ∧
      Root s' (as ++ ds.flatMap WrittenStruct.entries) := by
  induction hw generalizing fuel names s as with
  | nil =>
    rw [statements_of_close (h.atClose_iff.2 (.inl rfl)) hs, List.flatMap_nil, List.append_nil]
    exact ⟨h.passes, .refl _, hroot⟩
  | @cons d ds v w hv hw ih =>
    rw [List.flatMap_cons, ← List.append_assoc] at hnew ⊢
    have hnew₁ : ((as ++ d.entries).map Entry.key).Nodup := by
      rw [List.map_append] at hnew
      exact hnew.of_append_left
    have hname_not_close {s : State} {l : Lexeme} {w : List Lexeme} (h : s.Reads (l :: w))
        (hl : l.kind = .name) : ¬s.atClose = true := by
      rw [h.atClose_iff]
      rintro (hnil | ⟨_, ⟨⟩, hop⟩)
      · cases hnil
      · cases hop.1.symm.trans hl
    cases hv with
    | @intro typedef? k o c e v htypedef hk htag ho hv hc hname hnamed he =>
      have hstruct {fuel : Nat} {names : List SymbolId} {s : State} (hroot : Root s as)
          (h : s.Reads (k :: (d.tag?.toList ++ o :: (v ++ c :: (d.name?.toList ++ e :: w)))))
          (hs : statements cStructs fuel s = some (names, s')) :
          s.Passes s' [] ∧ Frame (s.token ≤ ·) s s' ∧
            Root s' (as ++ d.entries ++ ds.flatMap WrittenStruct.entries) := by
        obtain ⟨fuel', name?, s₁, rest, hs₁, hs₂⟩ :=
          statements_of_not_close (hname_not_close h hk.1) hs
        obtain ⟨h₁, hframe₁, hroot₁⟩ := root_struct hroot h hk htag ho hv hc hname hnamed he hnew₁
          (hmembers d List.mem_cons_self) hs₁
        obtain ⟨h₂, hframe₂, hroot₂⟩ :=
          ih h₁.reads hs₂ hroot₁ hnew fun d hd => hmembers d (List.mem_cons_of_mem _ hd)
        exact ⟨h₁.trans h₂, frame_trans hframe₁ hframe₂, hroot₂⟩
      simp only [List.append_assoc, List.cons_append, List.nil_append] at h
      cases ht : typedef? with
      | none =>
        rw [ht] at h
        exact hstruct hroot h hs
      | some t =>
        -- the word `typedef` is a statement of its own
        rw [ht] at h
        obtain ⟨hkind, htext⟩ := htypedef t ht
        have hident : t.IsIdent := ⟨hkind, by rw [htext]; decide⟩
        have h : s.Reads (t :: k :: (d.tag?.toList ++
            o :: (v ++ c :: (d.name?.toList ++ e :: w)))) := h
        obtain ⟨fuel', name?, s₁, rest, hs₁, hs₂⟩ :=
          statements_of_not_close (hname_not_close h hkind) hs
        rw [statement_of_operand h (.inl hident) hs₁] at hs₂
        obtain ⟨hframe₁, hroot₁⟩ := hroot.advance h
        obtain ⟨h₂, hframe₂, hroot₂⟩ := hstruct hroot₁ h.advance.reads hs₂
        exact ⟨h.advance.trans h₂, frame_trans hframe₁ hframe₂, hroot₂⟩

end CStruct.Rendering
