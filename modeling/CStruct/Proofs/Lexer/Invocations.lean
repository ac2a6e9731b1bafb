import CStruct.Pattern.Engine
import CStruct.Proofs.Lexer.Reports

/-!
# Exact text for actions

The text of a lexer is cut up into the texts that its actions are handed and what lies between them.
`Reported` follows a lexer from one action to the next. What an action is handed is the text between
two offsets and the positions of these. If the engine finds the leftmost match, the offsets are those
of the match that counts there; they are in order, and no match is passed over unless it is empty
(`Cuts`), up to the first that no rule claims. `lex_exact` puts this together with what calls of the
lexer answer.
-/

namespace CStruct

variable {α : Type}

/-- The next call of the action of the rule with this number. -/
def Rule.invoke (number : Nat) (r : Rule α) (text : String) (span : Span) : Invocation α :=
  ⟨number, r.calls + 1, text, span, r.action (r.calls + 1) text span⟩

namespace Lexer

variable {E : PatternEngine} {regex : E.Regex}

/-! ## From action to action -/

/-- What a lexer hands to a rule when it has gone on to `start`: the text up to `stop`. -/
def handed (l : Lexer E α) (start stop number : Nat) (r : Rule α) : Invocation α :=
  r.invoke number (String.ofList ((l.source.take stop).drop start))
    ⟨(l.moveTo start).position, ((l.moveTo start).moveTo stop).position⟩

/-- What actions are handed from `l` on. -/
inductive Reported (regex : E.Regex) : Lexer E α → List (Invocation α) → Prop
  | missed {l} (h : E.find? regex l.source l.offset = none) : Reported regex l []
  | atEnd {l} {m : Match} (h : E.find? regex l.source l.offset = some m)
      (hend : m.start = l.source.length) : Reported regex l []
  | unclaimed {l} {m : Match} (h : E.find? regex l.source l.offset = some m)
      (hlt : m.start < m.stop) (hnone : claim? l.rules.length m = none) : Reported regex l []
  | passed {l} {m : Match} {log} (h : E.find? regex l.source l.offset = some m)
      (hempty : m.stop = m.start) (hlt : m.start < l.source.length)
      (h' : Reported regex ((l.moveTo m.start).moveTo (m.start + 1)) log) : Reported regex l log
  | fired {l} {m : Match} {number r log} (h : E.find? regex l.source l.offset = some m)
      (hlt : m.start < m.stop) (hclaim : claim? l.rules.length m = some number)
      (hr : l.rules[number]? = some r)
      (h' : Reported regex (((l.moveTo m.start).moveTo m.stop).counting number) log) :
      Reported regex l (l.handed m.start m.stop number r :: log)

theorem reported_reports {l : Lexer E α} (hphase : l.phase = .running regex) :
    Reported regex l l.reports := by
  induction hleft : l.left using Nat.strongRecOn generalizing l with
  | ind left ih =>
    have hcount : l.reporting.rules.length = l.rules.length := List.length_mapIdx
    have hstepped := stepped l.reporting regex
    generalize hstep : l.reporting.step regex = out at hstepped
    cases hstepped with
    | missed h =>
      rw [reports, results_of_ended (l := l.reporting) hphase hstep]
      exact .missed h
    | atEnd h hend =>
      rw [reports, results_of_ended (l := l.reporting) hphase hstep]
      exact .atEnd h hend
    | unclaimed h hlt hnone =>
      rw [reports, results_of_ended (l := l.reporting) hphase hstep]
      exact .unclaimed h hlt (hcount ▸ hnone)
    | @passed m h hempty hlt =>
      have hless := (step_lt hstep Outcome.passed_ne_ended).1
      rw [reports, results_of_passed (l := l.reporting) hphase hstep]
      exact .passed h hempty hlt
        (ih _ (hleft ▸ hless) (l := (l.moveTo m.start).moveTo (m.start + 1)) hphase rfl)
    | @fired m number reporter h hlt hclaim hreporter =>
      rw [reporting, List.getElem?_mapIdx] at hreporter
      obtain ⟨r, hr, rfl⟩ := Option.map_eq_some_iff.1 hreporter
      let l' := ((l.moveTo m.start).moveTo m.stop).counting number
      have hsame : ((l.reporting.moveTo m.start).moveTo m.stop).counting number = l'.reporting :=
        (reporting_counting ((l.moveTo m.start).moveTo m.stop) number).symm
      -- an action that reports always gives a result
      have hyielded : l.reporting.step regex =
          (l'.reporting, .yielded (l.handed m.start m.stop number r)) := by
        rw [hstep, hsame]
        rfl
      have hless := (step_lt hyielded (Outcome.yielded_ne_ended _)).1
      rw [reports, results_of_yielded (l := l.reporting) hphase hyielded]
      exact .fired h hlt (hcount ▸ hclaim) hr (ih _ (hleft ▸ hless) (l := l') hphase rfl)

/-! ## Cuts -/

/-- The match that counts at the offset `s` ends at `e`, and the rule with this number claims it: it
is the first whose group took part. -/
def Claims (regex : E.Regex) (cs : List Char) (s e number : Nat) : Prop :=
  ∃ m, E.matchAt? regex cs s = some m ∧ m.stop = e ∧ Rule.groupName number ∈ m.groups ∧
    ∀ i < number, Rule.groupName i ∉ m.groups

/-- The match that counts at the offset `s` is not empty, and none of so many rules claims it. -/
def Unclaimed (regex : E.Regex) (count : Nat) (cs : List Char) (s : Nat) : Prop :=
  ∃ m, E.matchAt? regex cs s = some m ∧ s < m.stop ∧ ∀ i < count, Rule.groupName i ∉ m.groups

/-- A stretch of text that an action is handed, from one offset to another. -/
structure Cut (α : Type) where
  start : Nat
  stop : Nat
  invocation : Invocation α

/-- The action is handed the text of the cut, with the positions of its ends. It is the match that
counts at its start, and the rule claims it. -/
structure Cut.IsExact (regex : E.Regex) (cs : List Char) (c : Cut α) : Prop where
  nonempty : c.start < c.stop
  within : c.stop ≤ cs.length
  text : c.invocation.text = String.ofList ((cs.take c.stop).drop c.start)
  span : c.invocation.span = ⟨.ofOffset cs c.start, .ofOffset cs c.stop⟩
  claims : Claims regex cs c.start c.stop c.invocation.rule

/-- From the offset `o` on, the text is cut up exactly: the cuts are in order, and wherever the match
that counts is not empty, there is a cut, or else a match that no rule claims has come behind all the
cuts. -/
structure Cuts (regex : E.Regex) (count : Nat) (cs : List Char) (o : Nat) (cuts : List (Cut α)) :
    Prop where
  exact : ∀ c ∈ cuts, c.IsExact regex cs
  after : ∀ c ∈ cuts, o ≤ c.start
  ordered : cuts.Pairwise fun c d => c.stop ≤ d.start
  complete : ∀ s m, o ≤ s → E.matchAt? regex cs s = some m → s < m.stop →
    (∃ c ∈ cuts, c.start ≤ s ∧ s < c.stop) ∨
      ∃ s', o ≤ s' ∧ s' ≤ s ∧ Unclaimed regex count cs s' ∧ ∀ c ∈ cuts, c.stop ≤ s'

namespace Cuts

variable {count o : Nat} {cs : List Char} {cuts : List (Cut α)}

/-- There are no cuts where nothing but the empty text matches, up to what no rule claims. -/
theorem nil (h : ∀ s m, o ≤ s → E.matchAt? regex cs s = some m → s < m.stop →
    ∃ s', o ≤ s' ∧ s' ≤ s ∧ Unclaimed regex count cs s') :
    Cuts regex count cs o ([] : List (Cut α)) where
  exact := nofun
  after := nofun
  ordered := .nil
  complete s m hs hm hlt := by
    obtain ⟨s', hs', hle, hunclaimed⟩ := h s m hs hm hlt
    exact .inr ⟨s', hs', hle, hunclaimed, nofun⟩

theorem cons {c : Cut α} (hexact : c.IsExact regex cs) (h : Cuts regex count cs c.stop cuts) :
    Cuts regex count cs c.start (c :: cuts) where
  exact := List.forall_mem_cons.2 ⟨hexact, h.exact⟩
  after := by
    have hnonempty := hexact.nonempty
    refine List.forall_mem_cons.2 ⟨Nat.le_refl _, fun d hd => ?_⟩
    have hafter := h.after d hd
    omega
  ordered := List.pairwise_cons.2 ⟨h.after, h.ordered⟩
  complete s m hs hm hlt := by
    have hnonempty := hexact.nonempty
    by_cases hin : s < c.stop
    · exact .inl ⟨c, .head _, hs, hin⟩
    · rcases h.complete s m (Nat.le_of_not_lt hin) hm hlt with
        ⟨d, hd, hcovers⟩ | ⟨s', hs', hle, hunclaimed, hbehind⟩
      · exact .inl ⟨d, .tail _ hd, hcovers⟩
      · exact .inr ⟨s', by omega, hle, hunclaimed, List.forall_mem_cons.2 ⟨hs', hbehind⟩⟩

/-- Text where nothing but the empty text matches may come before. -/
theorem skip {o' : Nat} (h : Cuts regex count cs o' cuts) (hle : o ≤ o')
    (hsilent : ∀ s m, o ≤ s → s < o' → E.matchAt? regex cs s = some m → m.stop ≤ s) :
    Cuts regex count cs o cuts where
  exact := h.exact
  after c hc := Nat.le_trans hle (h.after c hc)
  ordered := h.ordered
  complete s m hs hm hlt := by
    by_cases hin : s < o'
    · have hstop := hsilent s m hs hin hm
      omega
    · rcases h.complete s m (Nat.le_of_not_lt hin) hm hlt with
        hcut | ⟨s', hs', hle', hunclaimed, hbehind⟩
      · exact .inl hcut
      · exact .inr ⟨s', Nat.le_trans hle hs', hle', hunclaimed, hbehind⟩

end Cuts

/-- The lexer stands in the text, at the position of its offset. -/
structure At (cs : List Char) (l : Lexer E α) : Prop where
  source : l.source = cs
  le : l.offset ≤ cs.length
  position : l.position = .ofOffset cs l.offset

namespace At

variable {cs : List Char} {l : Lexer E α}

theorem moveTo (h : At cs l) {o : Nat} (hle : l.offset ≤ o) (ho : o ≤ cs.length) :
    At cs (l.moveTo o) where
  source := h.source
  le := ho
  position := by
    show l.position.after (l.textTo o) = _
    rw [h.position, textTo, h.source, Position.after_ofOffset hle ho]
    rfl

theorem counting (h : At cs l) (number : Nat) : At cs (l.counting number) :=
  ⟨h.source, h.le, h.position⟩

/-- What a lexer hands to a rule is an exact cut, if it is the match that counts there. -/
theorem isExact_handed (h : At cs l) {m : Match} {number : Nat} (hle : l.offset ≤ m.start)
    (hlt : m.start < m.stop) (hstop : m.stop ≤ cs.length)
    (hm : E.matchAt? regex cs m.start = some m) (hclaim : claim? l.rules.length m = some number)
    (r : Rule α) :
    Cut.IsExact regex cs ⟨m.start, m.stop, l.handed m.start m.stop number r⟩ where
  nonempty := hlt
  within := hstop
  text := by rw [handed, Rule.invoke, h.source]
  span := by
    have hstart := h.moveTo hle (Nat.le_of_lt (Nat.lt_of_lt_of_le hlt hstop))
    have hend := hstart.moveTo (Nat.le_of_lt hlt) hstop
    rw [handed, Rule.invoke, hstart.position, hend.position]
    rfl
  claims := ⟨m, hm, rfl, (claim?_eq_some_iff.1 hclaim).2⟩

end At

/-- What actions are handed cuts up the text exactly. -/
theorem cuts_of_reported (hE : E.LeftmostFirst) {cs : List Char} {l : Lexer E α}
    {log : List (Invocation α)} (h : Reported regex l log) (hat : At cs l) :
    ∃ cuts : List (Cut α), cuts.map Cut.invocation = log ∧
      Cuts regex l.rules.length cs l.offset cuts := by
  induction h with
  | @missed l h =>
    obtain rfl := hat.source
    refine ⟨[], rfl, .nil fun s m hs hm _ => ?_⟩
    rw [hE.matchAt?_of_find?_none h hs] at hm
    cases hm
  | @atEnd l m h hend =>
    obtain rfl := hat.source
    refine ⟨[], rfl, .nil fun s m' hs hm' hlt => ?_⟩
    have hstop := (E.bounds_of_matchAt? hm').2
    rw [(hE.isLeftmost h).before s hs (by omega)] at hm'
    cases hm'
  | @unclaimed l m h hlt hnone =>
    obtain rfl := hat.source
    refine ⟨[], rfl, .nil fun s m' hs hm' _ => ?_⟩
    have hstart : m.start ≤ s := by
      by_contra hbefore
      rw [(hE.isLeftmost h).before s hs (Nat.lt_of_not_le hbefore)] at hm'
      cases hm'
    exact ⟨m.start, (E.bounds h).1, hstart, m, (hE.isLeftmost h).here, hlt,
      claim?_eq_none_iff.1 hnone⟩
  | @passed l m log h hempty hlt _ ih =>
    obtain rfl := hat.source
    have hle := (E.bounds h).1
    have hnext := (hat.moveTo hle (Nat.le_of_lt hlt)).moveTo (Nat.le_succ m.start) hlt
    obtain ⟨cuts, hlog, hcuts⟩ := ih hnext
    refine ⟨cuts, hlog, hcuts.skip (Nat.le_succ_of_le hle) fun s m' hs hs' hm' => ?_⟩
    rcases Nat.lt_or_eq_of_le (Nat.le_of_lt_succ hs') with hbefore | rfl
    · rw [(hE.isLeftmost h).before s hs hbefore] at hm'
      cases hm'
    · rw [(hE.isLeftmost h).here] at hm'
      cases hm'
      exact Nat.le_of_eq hempty
  | @fired l m number r log h hlt hclaim hr _ ih =>
    obtain rfl := hat.source
    obtain ⟨hle, -, hstop⟩ := E.bounds h
    have hm := (hE.isLeftmost h).here
    have hstart := hat.moveTo hle (by omega)
    obtain ⟨cuts, hlog, hcuts⟩ := ih ((hstart.moveTo (Nat.le_of_lt hlt) hstop).counting number)
    have hcount : (((l.moveTo m.start).moveTo m.stop).counting number).rules.length =
      l.rules.length := List.length_modify ..
    rw [hcount] at hcuts
    have hcons := hcuts.cons (c := ⟨m.start, m.stop, l.handed m.start m.stop number r⟩)
      (hat.isExact_handed hle hlt hstop hm hclaim r)
    refine ⟨_, congrArg _ hlog, hcons.skip hle fun s m' hs hs' hm' => ?_⟩
    rw [(hE.isLeftmost h).before s hs hs'] at hm'
    cases hm'

/-! ## Calls of actions -/

/-- Each action is called as often as it is handed something, in order, and what it answers then is
the answer. -/
def Called (rs : List (Rule α)) (log : List (Invocation α)) : Prop :=
  ∀ k i, log[k]? = some i → ∃ r, rs[i.rule]? = some r ∧
    i.call = r.calls + (log.take k).countP (·.rule == i.rule) + 1 ∧
    i.answer? = r.action i.call i.text i.span

/-- After each action, the calls of its rule are counted one up: this is what the number of actions of
a rule among the first `k` adds up to. -/
theorem called_of_reported {l : Lexer E α} {log : List (Invocation α)} (h : Reported regex l log) :
    Called l.rules log := by
  induction h with
  | missed | atEnd | unclaimed => nofun
  | passed _ _ _ _ ih => exact ih
  | @fired l m number r log _ _ _ hr _ ih =>
    intro j i hi
    cases j with
    | zero =>
      obtain rfl := Option.some.inj hi
      exact ⟨r, hr, rfl, rfl⟩
    | succ j =>
      obtain ⟨r', hr', hcall, hanswer⟩ := ih j i hi
      rw [counting, List.getElem?_modify] at hr'
      obtain ⟨r'', hr'', rfl⟩ := Option.map_eq_some_iff.1 hr'
      refine ⟨r'', hr'', ?_, ?_⟩
      · rw [hcall, List.take_succ_cons, List.countP_cons]
        by_cases hrule : number = i.rule
        · simp [hrule, handed, Rule.invoke]
          omega
        · simp [hrule, handed, Rule.invoke]
      · rw [hanswer]
        by_cases hrule : number = i.rule <;> simp [hrule]

/-! ## The whole run -/

/-- Adding a rule to a new lexer makes another one. -/
theorem eq_ofRules_of_addRule {source written : String} {rs : List (Rule α)}
    {action : Nat → String → Span → Option α} {l : Lexer E α}
    (h : (ofRules source rs).addRule written action = .ok l) :
    l = ofRules source (rs ++ [⟨written, action, 0⟩]) := by
  have hphase : (ofRules source rs : Lexer E α).phase = .configuring := rfl
  rw [addRule, if_pos hphase] at h
  split at h
  · exact (Except.ok.inj h).symm
  · cases h

/-- A lexer starts once its rules have been read as one pattern. -/
theorem eq_of_start {l l' : Lexer E α} (h : l.start = .ok l') (hphase : l.phase = .configuring) :
    ∃ regex, E.read? l.writtenRules = .ok regex ∧ l' = { l with phase := .running regex } := by
  rw [start, if_pos hphase] at h
  split at h
  · cases h
  · split at h
    · rename_i regex hregex
      exact ⟨regex, hregex, (Except.ok.inj h).symm⟩
    · cases h

theorem answers_lex_of_start {l l' : Lexer E α} (h : l.start = .ok l') (k : Nat) :
    l.answers (List.replicate k .lex) = l'.answers (List.replicate k .lex) := by
  cases k with
  | zero => rfl
  | succ k =>
    have hcall : l.call .lex = l'.call .lex := by
      rw [call_lex_of_started (follows_start h).2, call_lex, h]
    rw [List.replicate_succ, answers, answers, hcall]

/-- As long as results are asked for, the lexer runs with the same pattern, until it is finished. -/
theorem phase_after_lex {l : Lexer E α} (h : l.phase = .running regex ∨ l.phase = .finished)
    (k : Nat) :
    (l.after (List.replicate k .lex)).phase = .running regex ∨
      (l.after (List.replicate k .lex)).phase = .finished := by
  induction k generalizing l with
  | zero => exact h
  | succ k ih =>
    have hnext : l.next.2.phase = .running regex ∨ l.next.2.phase = .finished := by
      rcases h with hrunning | hfinished
      · rw [← hrunning]
        exact (loop_next hrunning).phase
      · rw [next_of_finished hfinished]
        exact .inr hfinished
    have hstarted : l.phase ≠ .configuring := by
      rcases h with hrunning | hfinished
      · exact hrunning ▸ LexerPhase.running_ne_configuring regex
      · exact hfinished ▸ LexerPhase.finished_ne_configuring
    rw [List.replicate_succ, after, call_lex_of_started hstarted]
    exact ih hnext

/-- The whole run of a lexer on a text, from its start over any number of calls, with an engine that
finds the leftmost match of the pattern of all rules.
1. The texts that its actions are handed cut up the text exactly, in order; each is the match that
   counts at its place, and goes to the first rule whose group took part in it. No match that is not
   empty is passed over, up to the first that no rule claims.
2. The actions are called one after another, and their answers are the answers.
3. The calls of the lexer give these answers, one each, and none after the last.
4. Each call comes to an end, and goes on up to the next answer.
5. Positions increase with the offset, so the spans are in order, and each tells the text. -/
theorem lex_exact (hE : E.LeftmostFirst) (source : String) (rs : List (Rule α)) {l : Lexer E α}
    (hstart : (ofRules source rs).start = .ok l) :
    let new : Lexer E α := ofRules source rs
    let cs := source.toList
    let log := l.reports
    ∃ regex, E.read? new.writtenRules = .ok regex ∧
    (∃ cuts : List (Cut α), cuts.map Cut.invocation = log ∧ Cuts regex rs.length cs 0 cuts) ∧
    Called rs log ∧
    (∀ k, new.answers (List.replicate k .lex) =
      (List.range k).map fun j => .ok (.next (log.filterMap Invocation.answer?)[j]?)) ∧
    (∀ k, let l' := l.after (List.replicate k .lex)
      ∃ result? l'', l'.call .lex = (.ok (.next result?), l'') ∧
        Answered l'.reports result? l''.reports ∧
        (l'.phase = .finished ∧ l'' = l' ∨ Loop regex l' result? l'')) ∧
    (∀ o o', o < o' → o' ≤ cs.length → Position.ofOffset cs o < Position.ofOffset cs o') ∧
    log.Pairwise (fun i j => i.span.stop ≤ j.span.start) ∧
    ∀ i ∈ log, ∀ s e, s ≤ cs.length → e ≤ cs.length →
      i.span = ⟨.ofOffset cs s, .ofOffset cs e⟩ →
        i.text = String.ofList ((cs.take e).drop s) := by
  intro new cs log
  obtain ⟨regex, hregex, rfl⟩ := eq_of_start hstart rfl
  have hphase := LexerPhase.running_ne_configuring regex
  have hreported : Reported regex _ log := reported_reports rfl
  have hat : At cs ({ new with phase := .running regex } : Lexer E α) := ⟨rfl, Nat.zero_le _, rfl⟩
  obtain ⟨cuts, hlog, hcuts⟩ := cuts_of_reported hE hreported hat
  refine ⟨regex, hregex, ⟨cuts, hlog, hcuts⟩, called_of_reported hreported, fun k => ?_,
    fun k => ?_, fun o o' hlt hle => Position.ofOffset_lt hlt hle, ?_,
    fun i hi s e hs he hspan => ?_⟩
  · rw [answers_lex_of_start hstart, answers_lex hphase]
  · intro l'
    have hstarted : l'.phase ≠ .configuring := (follows_after hphase _).started hphase
    refine ⟨_, _, call_lex_of_started hstarted, answered_next hstarted, ?_⟩
    have hphases : l'.phase = .running regex ∨ l'.phase = .finished :=
      phase_after_lex (.inl rfl) k
    rcases hphases with hrunning | hfinished
    · exact .inr (loop_next hrunning)
    · exact .inl ⟨hfinished, by rw [next_of_finished hfinished]⟩
  · rw [← hlog, List.pairwise_map]
    refine hcuts.ordered.imp_of_mem fun {c d} hc hd hle => ?_
    have hexact := hcuts.exact d hd
    rw [(hcuts.exact c hc).span, hexact.span]
    have hnonempty := hexact.nonempty
    have hwithin := hexact.within
    exact Position.ofOffset_le hle (by omega)
  · rw [← hlog] at hi
    obtain ⟨c, hc, rfl⟩ := List.mem_map.1 hi
    have hexact := hcuts.exact c hc
    have hnonempty := hexact.nonempty
    have hwithin := hexact.within
    rw [hexact.span] at hspan
    have hstart := Position.ofOffset_injective (by omega) hs (congrArg Span.start hspan)
    have hstop := Position.ofOffset_injective hwithin he (congrArg Span.stop hspan)
    rw [hexact.text, hstart, hstop]

/-- A rule that numbers the pieces of text it claims, and one that drops them. -/
def numbering : List (Rule Nat) :=
  [{ written := "a", action := fun n _ _ => some n }, { written := "b", action := fun _ _ _ => none }]

/-- The two pieces on the first line and the one on the second are handed over, and the answers for
the first and the last of them are the results. -/
theorem lex_exact_numbering :
    ∃ l : Lexer Pattern.engine Nat, Pattern.engine.LeftmostFirst ∧
      (ofRules "ab\na" numbering).start = .ok l ∧
      l.reports.map (fun i => (i.rule, i.text, i.span.start)) =
        [(0, "a", ⟨0, 0⟩), (1, "b", ⟨0, 1⟩), (0, "a", ⟨1, 0⟩)] ∧
      (ofRules "ab\na" numbering : Lexer Pattern.engine Nat).answers (List.replicate 3 .lex) =
        [.ok (.next (some 1)), .ok (.next (some 2)), .ok (.next none)] := by
  have hrun : (ofRules "ab\na" numbering : Lexer Pattern.engine Nat).start.map (fun l =>
      (l.reports.map fun i => (i.rule, i.text, i.span.start),
        l.reports.filterMap Invocation.answer?)) =
      .ok ([(0, "a", ⟨0, 0⟩), (1, "b", ⟨0, 1⟩), (0, "a", ⟨1, 0⟩)], [1, 2]) := by
    decide +kernel
  cases hstart : (ofRules "ab\na" numbering : Lexer Pattern.engine Nat).start with
  | error e =>
    rw [hstart] at hrun
    cases hrun
  | ok l =>
    rw [hstart] at hrun
    obtain ⟨hhanded, hvalues⟩ := Prod.mk.inj (Except.ok.inj hrun)
    obtain ⟨regex, -, -, -, hanswers, -⟩ := lex_exact Pattern.leftmostFirst_engine _ _ hstart
    refine ⟨l, Pattern.leftmostFirst_engine, rfl, hhanded, ?_⟩
    rw [hanswers, hvalues]
    rfl

end Lexer

end CStruct
