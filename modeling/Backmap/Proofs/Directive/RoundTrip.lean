import Backmap.Proofs.Directive.Grammar

/-!
# Reading a directive back

The text of a directive is read as the directive that it is of. An expression that does not ask for an action itself is
read to its end and no further, and arguments up to the last parenthesis.
-/

namespace Backmap.Directive

open Text

variable {k : Kind} {a : Action} {d : Directive} {e rest cs args : List Char} {asked : Option (Action × List Char)}

/-! ## The text of a directive -/

/-- What a directive asks for beyond what is done anyway. -/
def wanted (d : Directive) : Option (Action × List Char) :=
  match d.action with
  | none => none
  | some a => if d.kind = .inco ∧ a = .panic ∧ d.arguments = "" then none else some (a, d.arguments.toList)

/-- How that is written behind the expression. -/
def request : Option (Action × List Char) → List Char
  | none => []
  | some (a, args) => ',' :: ([' '] ++ '-' :: (a.name.toList ++ if args = [] then [] else '(' :: (args ++ [')'])))

theorem toList_text (d : Directive) :
    d.text.toList = d.kind.keyword ++ ' ' :: (d.expression.toList ++ request d.wanted) := by
  have hhead : ("@" ++ d.kind.name ++ ": " ++ d.expression).toList = d.kind.keyword ++ ' ' :: d.expression.toList := by
    simp [Kind.keyword]
  unfold text wanted
  cases d.action with
  | none => simp [request, hhead]
  | some a =>
      dsimp only
      split
      · simp [request, hhead]
      · by_cases hargs : d.arguments = "" <;> simp [request, hhead, hargs]

theorem ending_request (h : ∀ found ∈ asked, found.1 ∈ k.actions ∧ '\n' ∉ found.2) :
    Ending k (request asked) asked := by
  cases asked with
  | none => exact .plain (List.forall_mem_nil _)
  | some found =>
      obtain ⟨a, args⟩ := found
      obtain ⟨ha, hline⟩ := h _ rfl
      have hgap : ∀ c ∈ [' '], isBlank c = true := allBlank_iff.mp rfl
      refine .asks ha hgap ?_
      split
      · next hargs => exact hargs ▸ .bare (List.forall_mem_nil _)
      · next hargs => exact .given hargs hline (List.forall_mem_nil _)

theorem head_request : ∀ c ∈ (request asked).head?, c = ',' := by
  cases asked with
  | none => simp [request]
  | some found => simp [request]

/-! ## Where the expression ends -/

/-- An action of the kind is nowhere asked for in the text. -/
def Unasked (k : Kind) (e : List Char) : Prop :=
  ∀ a ∈ k.actions, ∀ gap, (∀ c ∈ gap, isBlank c = true) → ¬ ',' :: (gap ++ '-' :: a.name.toList) <:+: e

theorem comma_notMem {gap : List Char} (hgap : ∀ c ∈ gap, isBlank c = true) (a : Action) :
    ',' ∉ gap ++ '-' :: a.name.toList := by
  have hname : ',' ∉ '-' :: a.name.toList := by cases a <;> decide
  rw [List.mem_append, not_or]
  exact ⟨fun hcomma => absurd (hgap ',' hcomma) (by decide), hname⟩

/-- No action begins in an expression and ends behind it. -/
theorem Unasked.not_asks {left gap : List Char} (h : Unasked k (e ++ ',' :: left)) (ha : a ∈ k.actions)
    (hgap : ∀ c ∈ gap, isBlank c = true) (hrest : ∀ c ∈ rest.head?, c = ',') :
    left ++ rest ≠ gap ++ '-' :: a.name.toList ++ cs := by
  intro htext
  rcases List.append_eq_append_iff.mp htext with ⟨extra, hextra, rfl⟩ | ⟨more, rfl, -⟩
  · cases extra with
    | nil =>
        rw [List.append_nil] at hextra
        exact h a ha gap hgap ⟨e, [], by simp [← hextra]⟩
    | cons c extra =>
        have hc : c = ',' := hrest c rfl
        exact comma_notMem hgap a (by simp [hextra, hc])
  · exact h a ha gap hgap ⟨e, more, by simp⟩

theorem shortest_append (hne : e ≠ []) (hline : '\n' ∉ e) (hlast : ∀ c ∈ e.getLast?, isBlank c = false)
    (hunasked : Unasked k e) (hending : Ending k rest asked) (hrest : ∀ c ∈ rest.head?, c = ',') :
    Shortest k (e ++ rest) e asked := by
  refine ⟨⟨hne, hline, rest, rfl, hending⟩, ?_⟩
  rintro e' asked' ⟨hne', -, tail, htext, hending'⟩
  by_contra hshorter
  obtain ⟨left, rfl, rfl⟩ : ∃ left, e = e' ++ left ∧ tail = left ++ rest := by
    rcases List.append_eq_append_iff.mp htext with ⟨extra, rfl, -⟩ | hleft
    · exact absurd (by simp) hshorter
    · exact hleft
  obtain ⟨c, left, rfl⟩ : ∃ c left', left = c :: left' := List.exists_cons_of_ne_nil (by rintro rfl; simp at hshorter)
  generalize htail : c :: left ++ rest = tail at hending'
  cases hending' with
  | plain htrail =>
      obtain ⟨b, hb⟩ := Option.isSome_iff_exists.mp (List.getLast?_isSome.mpr (List.cons_ne_nil c left))
      have hblank : isBlank b = true := htrail b (htail ▸ List.mem_append_left rest (List.mem_of_getLast? hb))
      have hb' : b ∈ (e' ++ c :: left).getLast? := by simp [List.getLast?_append, hb]
      exact absurd hblank (Bool.eq_false_iff.mp (hlast b hb'))
  | @asks a gap cs args ha hgap hargs =>
      obtain ⟨rfl, hbehind⟩ := List.cons.inj htail
      exact hunasked.not_asks ha hgap hrest (hbehind.trans (List.append_assoc gap ('-' :: a.name.toList) cs).symm)

/-! ## Reading back -/

/-- What makes the text of a directive one that it can be read from. -/
structure Legible (d : Directive) : Prop where
  standalone : d.inline = false
  action : d.action = d.kind.default ∨ ∃ a ∈ d.kind.actions, d.action = some a
  expression : d.expression ≠ ""
  first : ∀ c ∈ d.expression.toList.head?, isBlank c = false
  last : ∀ c ∈ d.expression.toList.getLast?, isBlank c = false
  oneLine : '\n' ∉ d.expression.toList
  unasked : Unasked d.kind d.expression.toList
  arguments : d.arguments = "" ∨ d.action ≠ none ∧ '\n' ∉ d.arguments.toList
  /-- A condition that has the other keyword in it would be read as a directive of that kind. -/
  keyword : d.kind = .cond →
    ¬ Kind.inco.keyword <:+: d.expression.toList ∧ ¬ Kind.inco.keyword <:+: d.arguments.toList

theorem Legible.mem_actions (h : d.Legible) (ha : d.action = some a) : a ∈ d.kind.actions := by
  rcases h.action with hdefault | ⟨b, hb, hb'⟩
  · rw [ha] at hdefault
    cases hkind : d.kind with
    | inco => cases a <;> decide
    | cond =>
        rw [hkind] at hdefault
        cases hdefault
  · rw [ha, Option.some_inj] at hb'
    exact hb' ▸ hb

theorem Legible.wanted (h : d.Legible) : ∀ found ∈ d.wanted, found.1 ∈ d.kind.actions ∧ '\n' ∉ found.2 := by
  intro found hfound
  unfold Directive.wanted at hfound
  split at hfound
  · cases hfound
  · next a ha =>
    split at hfound
    · cases hfound
    · cases hfound
      refine ⟨h.mem_actions ha, ?_⟩
      rcases h.arguments with hargs | ⟨-, hline⟩
      · simp [hargs]
      · exact hline

/-- What is not asked for is what would be done anyway. -/
theorem Legible.of_wanted (h : d.Legible) :
    (d.wanted.map (·.1)).or d.kind.default = d.action ∧ (d.wanted.map (·.2)).getD [] = d.arguments.toList := by
  unfold Directive.wanted
  cases haction : d.action with
  | none =>
      have hargs : d.arguments = "" := h.arguments.resolve_right fun hsome => hsome.1 haction
      rcases h.action with hdefault | ⟨a, -, ha⟩
      · exact ⟨hdefault ▸ haction, by simp [hargs]⟩
      · rw [haction] at ha
        cases ha
  | some a =>
      dsimp only
      split
      · next hpanic =>
        obtain ⟨hkind, rfl, hargs⟩ := hpanic
        exact ⟨by rw [hkind]; rfl, by simp [hargs]⟩
      · exact ⟨rfl, rfl⟩

/-- The keyword cannot run over the edge of an expression or of arguments. -/
theorem keyword_infix_request (h : Kind.inco.keyword <:+: e ++ request asked) :
    Kind.inco.keyword <:+: e ∨ ∃ found ∈ asked, Kind.inco.keyword <:+: found.2 := by
  cases asked with
  | none =>
      rw [request, List.append_nil] at h
      exact .inl h
  | some found =>
      obtain ⟨a, args⟩ := found
      have hname : ¬ Kind.inco.keyword <:+: ' ' :: '-' :: a.name.toList :=
        not_infix_of_notMem (c := '@') (by decide) (by cases a <;> decide)
      rcases infix_append_cons (by decide) h with h | h
      · exact .inl h
      · by_cases hargs : args = []
        · rw [if_pos hargs, List.append_nil] at h
          exact absurd h hname
        · have h : Kind.inco.keyword <:+: (' ' :: '-' :: a.name.toList) ++ '(' :: (args ++ [')']) := by
            rwa [if_neg hargs] at h
          rcases infix_append_cons (by decide) h with h | h
          · exact absurd h hname
          · refine .inr ⟨_, rfl, (infix_append_cons (by decide) h).resolve_right ?_⟩
            exact not_infix_of_notMem (c := '@') (by decide) List.not_mem_nil

theorem Legible.keyword_notMem (h : d.Legible) (hcond : d.kind = .cond) :
    ¬ Kind.inco.keyword <:+: ("// " ++ d.text).toList := by
  intro hinner
  obtain ⟨hexpression, harguments⟩ := h.keyword hcond
  have htext : ("// " ++ d.text).toList = "// @if:".toList ++ ' ' :: (d.expression.toList ++ request d.wanted) := by
    rw [String.toList_append, toList_text, hcond]
    rfl
  rw [htext] at hinner
  have hstart : ¬ Kind.inco.keyword <:+: "// @if:".toList := not_infix_of_notMem (c := 'n') (by decide) (by decide)
  have hbehind := (infix_append_cons (by decide) hinner).resolve_left hstart
  rcases keyword_infix_request hbehind with hinner | ⟨found, hfound, hinner⟩
  · exact hexpression hinner
  · rw [← h.of_wanted.2, hfound] at harguments
    exact harguments hinner

theorem Legible.here?_text (h : d.Legible) :
    here? d.kind ("// " ++ d.text).toList = some (d.expression.toList, d.wanted) := by
  have hne : d.expression.toList ≠ [] := by simpa using h.expression
  have hshortest := shortest_append hne h.oneLine h.last h.unasked (ending_request h.wanted) head_request
  have hblank : Run isBlank [' '] := ⟨List.cons_ne_nil _ _, allBlank_iff.mp rfl⟩
  refine here?_eq_some_iff.mpr ⟨' ' :: (d.expression.toList ++ request d.wanted), ?_, ?_⟩
  · refine ⟨[' '], hblank.2, ?_⟩
    rw [String.toList_append, toList_text]
    rfl
  · refine ⟨[' '], _, hblank, rfl, hshortest, ?_⟩
    -- behind the one blank stands the beginning of the expression
    have hfirst : ∀ c ∈ (d.expression.toList ++ request d.wanted).head?, isBlank c = false := by
      obtain ⟨c, more, hexpression⟩ := List.exists_cons_of_ne_nil hne
      have hc := h.first
      rw [hexpression] at hc ⊢
      exact hc
    rintro blanks body hblanks htext hlonger
    obtain ⟨n, hn, hlength⟩ := exists_length_eq hblanks body
    rw [← htext, ← List.singleton_append, takeWhile_run hblank.2 hfirst] at hn
    omega

/-- A directive is read back from its text behind two slashes. -/
theorem parse?_text (h : d.Legible) : parse? ("// " ++ d.text) = some d := by
  have hkind : ofKind? d.kind ("// " ++ d.text).toList = some d := by
    have hfirst : firstOf (here? d.kind) ("// " ++ d.text).toList = some (d.expression.toList, d.wanted) :=
      firstOf_eq_some_iff.mpr ⟨_, List.suffix_rfl, h.here?_text, fun earlier hearlier hlt =>
        absurd hearlier.length_le (Nat.not_le.mpr hlt)⟩
    have hslashes : after? ['/', '/'] (trimLeft ("// " ++ d.text).toList) = some (' ' :: d.text.toList) := by
      rw [String.toList_append]
      rfl
    obtain ⟨haction, harguments⟩ := h.of_wanted
    rw [ofKind?, hfirst, Option.map_some]
    dsimp only
    rw [trim_eq_self h.first h.last, haction, harguments, hslashes, String.ofList_toList, String.ofList_toList,
      Option.isNone_some, ← h.standalone]
  refine parse?_eq_some_iff.mpr ⟨hkind, fun hcond => Option.eq_none_iff_forall_ne_some.mpr fun d' hd' => ?_⟩
  obtain ⟨gap, -, hinner⟩ := comment_infix hd'
  have hkeyword : Kind.inco.keyword <:+: '/' :: '/' :: (gap ++ Kind.inco.keyword) :=
    (List.suffix_append ('/' :: '/' :: gap) Kind.inco.keyword).isInfix
  exact h.keyword_notMem hcond (hkeyword.trans hinner)

/-- The expression has slashes, the keyword of its own kind and an action of the other one in it; the arguments have
parentheses that do not match, and an action. -/
theorem parse?_text_nested :
    Legible ⟨.cond, "f(a, -panic) // @if: b,", some .log, "g(x), -log(y)) ", false⟩ ∧
      parse? "// @if: f(a, -panic) // @if: b,, -log(g(x), -log(y)) )" =
        some ⟨.cond, "f(a, -panic) // @if: b,", some .log, "g(x), -log(y)) ", false⟩ := by
  have hlegible : Legible ⟨.cond, "f(a, -panic) // @if: b,", some .log, "g(x), -log(y)) ", false⟩ := by
    refine ⟨rfl, .inr ⟨.log, by decide, rfl⟩, by decide, ?_, ?_, by decide, ?_, .inr (by decide), ?_⟩
    · intro c hc
      obtain rfl : 'f' = c := Option.some.inj hc
      decide
    · intro c hc
      obtain rfl : ',' = c := Option.some.inj hc
      decide
    · intro a ha gap _
      obtain rfl : a = .log := List.mem_singleton.mp ha
      exact not_infix_of_notMem (c := 'g') (by simp [Action.name]) (by decide)
    · intro _
      exact ⟨not_infix_of_notMem (c := 'o') (by decide) (by decide),
        not_infix_of_notMem (c := '@') (by decide) (by decide)⟩
  refine ⟨hlegible, ?_⟩
  have htext : "// " ++ text ⟨.cond, "f(a, -panic) // @if: b,", some .log, "g(x), -log(y)) ", false⟩ =
      "// @if: f(a, -panic) // @if: b,, -log(g(x), -log(y)) )" := by decide
  rw [← htext]
  exact parse?_text hlegible

end Backmap.Directive
