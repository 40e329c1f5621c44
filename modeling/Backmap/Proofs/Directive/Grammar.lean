import Backmap.Directive
import Backmap.Proofs.Text.Runs

/-!
# The grammar of directives

A comment may be read in more than one way: blanks behind the keyword may be taken for a part of the expression, and
what looks like an action may belong to it as well. The relations here tell all the ways, and which of them is taken: as
many blanks as possible, and then the shortest expression.
-/

namespace Backmap.Directive

open Text

variable {k : Kind} {a : Action} {c : Char} {cs rest args taken e e' body blanks line : List Char}
  {asked asked' : Option (Action × List Char)}

/-! ## Endings -/

/-- What may follow the name of an action: blanks, with arguments in parentheses before them or without. -/
inductive Arguments : List Char → List Char → Prop where
  | bare {trail : List Char} (htrail : ∀ c ∈ trail, isBlank c = true) : Arguments trail []
  | given {args trail : List Char} (hne : args ≠ []) (hline : '\n' ∉ args) (htrail : ∀ c ∈ trail, isBlank c = true) :
      Arguments ('(' :: (args ++ ')' :: trail)) args

/-- What may follow an expression: blanks, or an action that a directive of the kind may ask for. -/
inductive Ending (k : Kind) : List Char → Option (Action × List Char) → Prop where
  | plain {trail : List Char} (htrail : ∀ c ∈ trail, isBlank c = true) : Ending k trail none
  | asks {a : Action} {gap cs args : List Char} (ha : a ∈ k.actions) (hgap : ∀ c ∈ gap, isBlank c = true)
      (hargs : Arguments cs args) : Ending k (',' :: (gap ++ '-' :: (a.name.toList ++ cs))) (some (a, args))

theorem arguments?_eq_some_iff :
    arguments? cs = some args ↔
      args ≠ [] ∧ '\n' ∉ args ∧ ∃ trail, (∀ c ∈ trail, isBlank c = true) ∧ cs = '(' :: (args ++ ')' :: trail) := by
  constructor
  · intro h
    unfold arguments? at h
    split at h
    · next rest =>
      split at h
      · next inner hlast =>
        split at h
        · cases h
        · next hinner =>
          cases h
          rw [not_or] at hinner
          obtain ⟨trail, hrest, htrail, -⟩ := exists_dropTailWhile isBlank rest
          have htrim : trimRight rest = inner.reverse ++ [')'] := by
            rw [← List.reverse_reverse (trimRight rest), hlast, List.reverse_cons]
          refine ⟨by simpa using hinner.1, by simpa using hinner.2, trail, htrail, ?_⟩
          rw [← trimRight, htrim, List.append_assoc, List.singleton_append] at hrest
          rw [hrest]
      · cases h
    · cases h
  · rintro ⟨hne, hline, trail, htrail, rfl⟩
    have htrim : trimRight (args ++ ')' :: trail) = args ++ [')'] := by
      rw [List.append_cons]
      refine dropTailWhile_run htrail ?_
      rw [List.getLast?_concat]
      rintro c ⟨⟩
      decide
    simp [arguments?, htrim, hne, hline]

theorem arguments?_of_allBlank (h : allBlank cs = true) : arguments? cs = none := by
  cases hargs : arguments? cs with
  | none => rfl
  | some args =>
      obtain ⟨-, -, trail, -, rfl⟩ := arguments?_eq_some_iff.mp hargs
      cases h

theorem action?_eq_some_iff {found : Action × List Char} :
    action? a cs = some found ↔ ∃ rest args, cs = a.name.toList ++ rest ∧ Arguments rest args ∧ found = (a, args) := by
  unfold action?
  constructor
  · intro h
    split at h
    · cases h
    · next rest hrest =>
      refine ⟨rest, found.2, after?_eq_some_iff.mp hrest, ?_⟩
      split at h
      · next args hargs =>
        cases h
        obtain ⟨hne, hline, trail, htrail, rfl⟩ := arguments?_eq_some_iff.mp hargs
        exact ⟨.given hne hline htrail, rfl⟩
      · split at h
        · next hblank =>
          cases h
          exact ⟨.bare (allBlank_iff.mp hblank), rfl⟩
        · cases h
  · rintro ⟨rest, args, rfl, hargs, rfl⟩
    rw [after?_append]
    cases hargs with
    | bare htrail =>
        have hblank := allBlank_iff.mpr htrail
        simp only [arguments?_of_allBlank hblank, hblank, if_true]
    | given hne hline htrail =>
        simp only [arguments?_eq_some_iff.mpr ⟨hne, hline, _, htrail, rfl⟩]

/-- No action has a name that another one begins with. -/
theorem after?_name {b : Action} (h : b ≠ a) (cs : List Char) : after? b.name.toList (a.name.toList ++ cs) = none := by
  cases a <;> cases b <;> first | rfl | exact absurd rfl h

theorem findSome?_action (ha : a ∈ k.actions) (hargs : Arguments cs args) :
    (k.actions.findSome? fun b => action? b (a.name.toList ++ cs)) = some (a, args) := by
  obtain ⟨before, after, hactions, hfirst⟩ := List.eq_append_cons_of_mem ha
  refine List.findSome?_eq_some_iff.mpr ⟨before, a, after, hactions, ?_, fun b hb => ?_⟩
  · exact action?_eq_some_iff.mpr ⟨cs, args, rfl, hargs, rfl⟩
  · have hne : b ≠ a := fun h => hfirst (h ▸ hb)
    rw [action?, after?_name hne]

theorem ending?_eq_some_iff : ending? k cs = some asked ↔ Ending k cs asked := by
  unfold ending?
  dsimp only
  constructor
  · intro h
    split at h
    · next found hfound =>
      cases h
      split at hfound
      · next rest =>
        split at hfound
        · next rest' hrest =>
          obtain ⟨a, ha, hfound⟩ := List.exists_of_findSome?_eq_some hfound
          obtain ⟨cs, args, rfl, hargs, rfl⟩ := action?_eq_some_iff.mp hfound
          rw [← List.takeWhile_append_dropWhile (p := isBlank) (l := rest), ← trimLeft, hrest]
          exact .asks ha (List.all_eq_true.mp List.all_takeWhile) hargs
        · cases hfound
      · cases hfound
    · split at h
      · next hblank =>
        cases h
        exact .plain (allBlank_iff.mp hblank)
      · cases h
  · intro h
    cases h with
    | plain htrail =>
        have hblank := allBlank_iff.mpr htrail
        split
        · next hfound =>
          split at hfound
          · cases hblank
          · cases hfound
        · rw [if_pos hblank]
    | @asks a gap cs args ha hgap hargs =>
        have hdash : trimLeft (gap ++ '-' :: (a.name.toList ++ cs)) = '-' :: (a.name.toList ++ cs) := by
          refine dropWhile_run hgap ?_
          rintro c ⟨⟩
          decide
        simp only [hdash, findSome?_action ha hargs]

/-! ## Expressions -/

/-- The text is an expression with something acceptable behind it. -/
def Splits (k : Kind) (cs e : List Char) (asked : Option (Action × List Char)) : Prop :=
  e ≠ [] ∧ '\n' ∉ e ∧ ∃ rest, cs = e ++ rest ∧ Ending k rest asked

theorem not_splits_nil : ¬ Splits k [] e asked := by
  rintro ⟨hne, -, rest, hcs, -⟩
  exact hne (List.append_eq_nil_iff.mp hcs.symm).1

theorem splits_cons :
    Splits k (c :: cs) e asked ↔
      c ≠ '\n' ∧ ∃ e', e = c :: e' ∧ (e' = [] ∧ Ending k cs asked ∨ Splits k cs e' asked) := by
  constructor
  · rintro ⟨hne, hline, rest, hcs, hending⟩
    obtain ⟨d, e', rfl⟩ := List.exists_cons_of_ne_nil hne
    obtain ⟨rfl, rfl⟩ := List.cons.inj hcs
    obtain ⟨hc, hline⟩ := not_or.mp (mt List.mem_cons.mpr hline)
    refine ⟨Ne.symm hc, e', rfl, ?_⟩
    by_cases he' : e' = []
    · subst he'
      exact .inl ⟨rfl, hending⟩
    · exact .inr ⟨he', hline, rest, rfl, hending⟩
  · rintro ⟨hc, e', rfl, ⟨rfl, hending⟩ | ⟨hne, hline, rest, rfl, hending⟩⟩
    · exact ⟨List.cons_ne_nil c [], by simpa using hc.symm, cs, rfl, hending⟩
    · exact ⟨List.cons_ne_nil c e', by simpa [hline] using hc.symm, rest, rfl, hending⟩

/-- No shorter expression can be split off. -/
structure Shortest (k : Kind) (cs e : List Char) (asked : Option (Action × List Char)) : Prop where
  splits : Splits k cs e asked
  least : ∀ e' asked', Splits k cs e' asked' → e.length ≤ e'.length

theorem Shortest.unique (h : Shortest k cs e asked) (h' : Shortest k cs e' asked') : e = e' ∧ asked = asked' := by
  have hlength : e.length = e'.length := Nat.le_antisymm (h.least _ _ h'.splits) (h'.least _ _ h.splits)
  obtain ⟨-, -, rest, rfl, hending⟩ := h.splits
  obtain ⟨-, -, rest', hcs, hending'⟩ := h'.splits
  obtain ⟨rfl, rfl⟩ := List.append_inj hcs hlength
  exact ⟨rfl, Option.some.inj ((ending?_eq_some_iff.mpr hending).symm.trans (ending?_eq_some_iff.mpr hending'))⟩

theorem expression?_eq_none_iff : expression? k taken cs = none ↔ ∀ e asked, ¬ Splits k cs e asked := by
  induction cs generalizing taken with
  | nil => exact ⟨fun _ _ _ => not_splits_nil, fun _ => rfl⟩
  | cons c cs ih =>
      unfold expression?
      split
      · next hc => simp [splits_cons, hc]
      · next hc =>
        split
        · next asked hasked =>
          have hsplits : Splits k (c :: cs) [c] asked :=
            splits_cons.mpr ⟨hc, [], rfl, .inl ⟨rfl, ending?_eq_some_iff.mp hasked⟩⟩
          exact ⟨fun h => absurd h (Option.some_ne_none _), fun h => absurd hsplits (h _ _)⟩
        · next hnone =>
          rw [ih]
          constructor
          · intro h e asked he
            obtain ⟨-, e', rfl, ⟨-, hending⟩ | hsplits⟩ := splits_cons.mp he
            · rw [ending?_eq_some_iff.mpr hending] at hnone
              cases hnone
            · exact h e' asked hsplits
          · exact fun h e asked he => h _ asked (splits_cons.mpr ⟨hc, e, rfl, .inr he⟩)

theorem shortest_of_expression? (h : expression? k taken cs = some (e, asked)) :
    ∃ more, e = taken.reverse ++ more ∧ Shortest k cs more asked := by
  induction cs generalizing taken with
  | nil => cases h
  | cons c cs ih =>
      unfold expression? at h
      split at h
      · cases h
      · next hc =>
        split at h
        · next asked' hasked =>
          cases h
          refine ⟨[c], List.reverse_cons, splits_cons.mpr ⟨hc, [], rfl, .inl ⟨rfl, ending?_eq_some_iff.mp hasked⟩⟩, ?_⟩
          exact fun e' _ he' => List.length_pos_iff.mpr he'.1
        · next hnone =>
          obtain ⟨more, rfl, hmore⟩ := ih h
          refine ⟨c :: more, by simp, splits_cons.mpr ⟨hc, more, rfl, .inr hmore.splits⟩, fun e' asked' he' => ?_⟩
          obtain ⟨-, e', rfl, ⟨-, hending⟩ | hsplits⟩ := splits_cons.mp he'
          · rw [ending?_eq_some_iff.mpr hending] at hnone
            cases hnone
          · exact Nat.succ_le_succ (hmore.least e' asked' hsplits)

theorem expression?_eq_some_iff : expression? k [] cs = some (e, asked) ↔ Shortest k cs e asked := by
  constructor
  · intro h
    obtain ⟨more, rfl, hmore⟩ := shortest_of_expression? h
    exact hmore
  · intro h
    cases hfound : expression? k [] cs with
    | none => exact absurd h.splits (expression?_eq_none_iff.mp hfound e asked)
    | some found =>
        obtain ⟨more, hmore, hshortest⟩ := shortest_of_expression? hfound
        obtain ⟨rfl, rfl⟩ := h.unique hshortest
        rw [← hmore.trans (List.nil_append _)]

/-! ## Blanks behind the keyword -/

/-- What can be read behind a keyword: an expression behind blanks. -/
def Reads (k : Kind) (rest e : List Char) (asked : Option (Action × List Char)) : Prop :=
  ∃ blanks body, Run isBlank blanks ∧ rest = blanks ++ body ∧ Splits k body e asked

/-- What is read: the most blanks, and then the shortest expression. -/
def Prefers (k : Kind) (rest e : List Char) (asked : Option (Action × List Char)) : Prop :=
  ∃ blanks body, Run isBlank blanks ∧ rest = blanks ++ body ∧ Shortest k body e asked ∧
    ∀ blanks' body', Run isBlank blanks' → rest = blanks' ++ body' → blanks.length < blanks'.length →
      ∀ e' asked', ¬ Splits k body' e' asked'

theorem Prefers.reads (h : Prefers k rest e asked) : Reads k rest e asked := by
  obtain ⟨blanks, body, hrun, hrest, hshortest, -⟩ := h
  exact ⟨blanks, body, hrun, hrest, hshortest.splits⟩

theorem Prefers.unique (h : Prefers k rest e asked) (h' : Prefers k rest e' asked') : e = e' ∧ asked = asked' := by
  obtain ⟨blanks, body, hrun, hrest, hshortest, hmost⟩ := h
  obtain ⟨blanks', body', hrun', hrest', hshortest', hmost'⟩ := h'
  have hlength : blanks.length = blanks'.length := by
    rcases Nat.lt_trichotomy blanks.length blanks'.length with hlt | heq | hgt
    · exact absurd hshortest'.splits (hmost _ _ hrun' hrest' hlt _ _)
    · exact heq
    · exact absurd hshortest.splits (hmost' _ _ hrun hrest hgt _ _)
  obtain ⟨rfl, rfl⟩ := List.append_inj (hrest.symm.trans hrest') hlength
  exact hshortest.unique hshortest'

theorem exists_length_eq (h : Run isBlank blanks) (body : List Char) :
    ∃ n < ((blanks ++ body).takeWhile isBlank).length, blanks.length = n + 1 := by
  obtain ⟨n, hn⟩ := Nat.exists_eq_add_one_of_ne_zero (mt List.length_eq_zero_iff.mp h.1)
  refine ⟨n, ?_, hn⟩
  rw [List.takeWhile_append_of_pos h.2, List.length_append]
  omega

theorem run_take {n : Nat} (hn : n < (rest.takeWhile isBlank).length) :
    Run isBlank (rest.take (n + 1)) ∧ (rest.take (n + 1)).length = n + 1 := by
  have htake : rest.take (n + 1) = (rest.takeWhile isBlank).take (n + 1) := by
    rw [List.prefix_iff_eq_take.mp (List.takeWhile_prefix isBlank), List.take_take, Nat.min_eq_left hn]
  have hlength : (rest.take (n + 1)).length = n + 1 := by
    rw [htake, List.length_take, Nat.min_eq_left hn]
  refine ⟨⟨List.ne_nil_of_length_eq_add_one hlength, fun c hc => ?_⟩, hlength⟩
  rw [htake] at hc
  exact List.all_eq_true.mp List.all_takeWhile c (List.mem_of_mem_take hc)

theorem behindBlanks?_eq_none_iff {n : Nat} :
    behindBlanks? k rest n = none ↔ ∀ m < n, expression? k [] (rest.drop (m + 1)) = none := by
  induction n with
  | zero => simp [behindBlanks?]
  | succ n ih => rw [behindBlanks?, Option.or_eq_none_iff, ih, Nat.forall_lt_succ_right, and_comm]

theorem exists_of_behindBlanks? {n : Nat} {found : List Char × Option (Action × List Char)}
    (h : behindBlanks? k rest n = some found) :
    ∃ m < n, expression? k [] (rest.drop (m + 1)) = some found ∧
      ∀ m' < n, m < m' → expression? k [] (rest.drop (m' + 1)) = none := by
  induction n with
  | zero => cases h
  | succ n ih =>
      rw [behindBlanks?, Option.or_eq_some_iff] at h
      rcases h with hn | ⟨hn, h⟩
      · exact ⟨n, Nat.lt_succ_self n, hn, fun m' hm' hlt => by omega⟩
      · obtain ⟨m, hm, hfound, hlater⟩ := ih h
        refine ⟨m, Nat.lt_succ_of_lt hm, hfound, fun m' hm' hlt => ?_⟩
        rcases Nat.lt_succ_iff_lt_or_eq.mp hm' with hm' | rfl
        · exact hlater m' hm' hlt
        · exact hn

theorem exists_behindBlanks? (h : Reads k rest e asked) :
    ∃ found, behindBlanks? k rest (rest.takeWhile isBlank).length = some found := by
  obtain ⟨blanks, body, hblanks, rfl, hsplits⟩ := h
  rw [← Option.ne_none_iff_exists']
  intro hnone
  obtain ⟨n, hn, hlength⟩ := exists_length_eq hblanks body
  have hbody := behindBlanks?_eq_none_iff.mp hnone n hn
  rw [← hlength, List.drop_left] at hbody
  exact expression?_eq_none_iff.mp hbody e asked hsplits

theorem prefers_of_behindBlanks? (h : behindBlanks? k rest (rest.takeWhile isBlank).length = some (e, asked)) :
    Prefers k rest e asked := by
  obtain ⟨m, hm, hfound, hlater⟩ := exists_of_behindBlanks? h
  obtain ⟨hrun, hlength⟩ := run_take hm
  refine ⟨rest.take (m + 1), rest.drop (m + 1), hrun, (List.take_append_drop (m + 1) rest).symm,
    expression?_eq_some_iff.mp hfound, ?_⟩
  rintro blanks body hblanks rfl hlonger
  obtain ⟨n, hn, hlength'⟩ := exists_length_eq hblanks body
  have hnone := hlater n hn (by omega)
  rw [← hlength', List.drop_left] at hnone
  exact expression?_eq_none_iff.mp hnone

theorem behindBlanks?_eq_some_iff :
    behindBlanks? k rest (rest.takeWhile isBlank).length = some (e, asked) ↔ Prefers k rest e asked := by
  constructor
  · exact prefers_of_behindBlanks?
  · intro h
    obtain ⟨⟨e', asked'⟩, hfound⟩ := exists_behindBlanks? h.reads
    obtain ⟨rfl, rfl⟩ := h.unique (prefers_of_behindBlanks? hfound)
    exact hfound

/-! ## Comments -/

/-- The text begins a comment of the kind, with `rest` behind the keyword. -/
def Opens (k : Kind) (cs rest : List Char) : Prop :=
  ∃ gap, (∀ c ∈ gap, isBlank c = true) ∧ cs = '/' :: '/' :: (gap ++ (k.keyword ++ rest))

theorem trimLeft_keyword {gap : List Char} (hgap : ∀ c ∈ gap, isBlank c = true) :
    trimLeft (gap ++ (k.keyword ++ rest)) = k.keyword ++ rest := by
  refine dropWhile_run hgap ?_
  rintro c ⟨⟩
  decide

theorem here?_eq_some_iff : here? k cs = some (e, asked) ↔ ∃ rest, Opens k cs rest ∧ Prefers k rest e asked := by
  unfold here?
  simp only [Option.bind_eq_bind, Option.bind_eq_some_iff, after?_eq_some_iff, behindBlanks?_eq_some_iff]
  constructor
  · rintro ⟨behind, rfl, rest, hrest, hfound⟩
    refine ⟨rest, ⟨behind.takeWhile isBlank, List.all_eq_true.mp List.all_takeWhile, ?_⟩, hfound⟩
    rw [← hrest, trimLeft, List.takeWhile_append_dropWhile]
    rfl
  · rintro ⟨rest, ⟨gap, hgap, rfl⟩, hfound⟩
    exact ⟨gap ++ (k.keyword ++ rest), rfl, rest, trimLeft_keyword hgap, hfound⟩

/-- A comment of the kind that can be read stands here, with `rest` behind its keyword. -/
def Comment (k : Kind) (cs rest : List Char) : Prop := Opens k cs rest ∧ ∃ e asked, Reads k rest e asked

theorem exists_here?_iff : (∃ found, here? k cs = some found) ↔ ∃ rest, Comment k cs rest := by
  constructor
  · rintro ⟨⟨e, asked⟩, h⟩
    obtain ⟨rest, hopens, hprefers⟩ := here?_eq_some_iff.mp h
    exact ⟨rest, hopens, e, asked, hprefers.reads⟩
  · rintro ⟨rest, hopens, e, asked, hreads⟩
    obtain ⟨⟨e', asked'⟩, hfound⟩ := exists_behindBlanks? hreads
    exact ⟨_, here?_eq_some_iff.mpr ⟨rest, hopens, behindBlanks?_eq_some_iff.mp hfound⟩⟩

theorem firstOf_eq_none_iff {α : Type} {read : List Char → Option α} :
    firstOf read cs = none ↔ ∀ back, back <:+ cs → read back = none := by
  induction cs with
  | nil => simp [firstOf]
  | cons c cs ih => simp [firstOf, Option.or_eq_none_iff, ih, List.suffix_cons_iff]

theorem firstOf_eq_some_iff {α : Type} {read : List Char → Option α} {found : α} :
    firstOf read cs = some found ↔
      ∃ back, back <:+ cs ∧ read back = some found ∧
        ∀ earlier, earlier <:+ cs → back.length < earlier.length → read earlier = none := by
  induction cs with
  | nil =>
      simp only [firstOf, List.suffix_nil, exists_eq_left]
      exact ⟨fun h => ⟨h, fun earlier he hlt => by simp [he] at hlt⟩, And.left⟩
  | cons c cs ih =>
      rw [firstOf, Option.or_eq_some_iff, ih]
      constructor
      · rintro (hfound | ⟨hnone, back, hback, hfound, hearlier⟩)
        · refine ⟨c :: cs, List.suffix_rfl, hfound, fun earlier he hlt => ?_⟩
          exact absurd he.length_le (Nat.not_le.mpr hlt)
        · refine ⟨back, hback.trans (List.suffix_cons c cs), hfound, fun earlier he hlt => ?_⟩
          rcases List.suffix_cons_iff.mp he with rfl | he
          · exact hnone
          · exact hearlier earlier he hlt
      · rintro ⟨back, hback, hfound, hearlier⟩
        rcases List.suffix_cons_iff.mp hback with rfl | hback
        · exact .inl hfound
        · refine .inr ⟨hearlier _ List.suffix_rfl (Nat.lt_succ_of_le hback.length_le), back, hback, hfound, ?_⟩
          exact fun earlier he => hearlier earlier (he.trans (List.suffix_cons c cs))

/-- The first comment of the kind on a line that can be read has `rest` behind its keyword. -/
def First (k : Kind) (line rest : List Char) : Prop :=
  ∃ cs, cs <:+ line ∧ Comment k cs rest ∧
    ∀ earlier rest', earlier <:+ line → cs.length < earlier.length → ¬ Comment k earlier rest'

theorem Opens.unique {rest' : List Char} (h : Opens k cs rest) (h' : Opens k cs rest') : rest = rest' := by
  obtain ⟨gap, hgap, rfl⟩ := h
  obtain ⟨gap', hgap', hcs⟩ := h'
  have hkeyword := congrArg trimLeft (List.cons.inj (List.cons.inj hcs).2).2
  rw [trimLeft_keyword hgap, trimLeft_keyword hgap'] at hkeyword
  exact List.append_cancel_left hkeyword

theorem First.unique {rest' : List Char} (h : First k line rest) (h' : First k line rest') : rest = rest' := by
  obtain ⟨cs, hcs, hcomment, hearlier⟩ := h
  obtain ⟨cs', hcs', hcomment', hearlier'⟩ := h'
  have hlength : cs.length = cs'.length := by
    rcases Nat.lt_trichotomy cs.length cs'.length with hlt | heq | hgt
    · exact absurd hcomment' (hearlier cs' rest' hcs' hlt)
    · exact heq
    · exact absurd hcomment (hearlier' cs rest hcs hgt)
  obtain rfl := (List.suffix_of_suffix_length_le hcs hcs' hlength.le).eq_of_length hlength
  exact hcomment.1.unique hcomment'.1

theorem first_of_firstOf (h : firstOf (here? k) line = some (e, asked)) :
    ∃ rest, First k line rest ∧ Prefers k rest e asked := by
  obtain ⟨cs, hcs, hfound, hearlier⟩ := firstOf_eq_some_iff.mp h
  obtain ⟨rest, hopens, hprefers⟩ := here?_eq_some_iff.mp hfound
  refine ⟨rest, ⟨cs, hcs, ⟨hopens, e, asked, hprefers.reads⟩, fun earlier rest' he hlt hcomment => ?_⟩, hprefers⟩
  obtain ⟨found, hfound'⟩ := exists_here?_iff.mpr ⟨rest', hcomment⟩
  rw [hearlier earlier he hlt] at hfound'
  cases hfound'

/-! ## Lines -/

theorem first_of_ofKind? {d : Directive} (h : ofKind? k line = some d) :
    d.kind = k ∧ ∃ rest e asked, First k line rest ∧ Prefers k rest e asked ∧
      d.expression = String.ofList (trim e) := by
  obtain ⟨⟨e, asked⟩, hfound, rfl⟩ := Option.map_eq_some_iff.mp h
  obtain ⟨rest, hfirst, hprefers⟩ := first_of_firstOf hfound
  exact ⟨rfl, rest, e, asked, hfirst, hprefers, rfl⟩

theorem exists_ofKind?_iff : (∃ d, ofKind? k line = some d) ↔ ∃ rest, First k line rest := by
  constructor
  · rintro ⟨d, h⟩
    obtain ⟨-, rest, -, -, hfirst, -⟩ := first_of_ofKind? h
    exact ⟨rest, hfirst⟩
  · rintro ⟨rest, cs, hcs, hcomment, -⟩
    obtain ⟨found, hfound⟩ := exists_here?_iff.mpr ⟨rest, hcomment⟩
    rw [← Option.ne_none_iff_exists']
    intro hnone
    have hnone := firstOf_eq_none_iff.mp (Option.map_eq_none_iff.mp hnone) cs hcs
    rw [hfound] at hnone
    cases hnone

theorem ofKind?_eq_none_iff : ofKind? k line = none ↔ ∀ rest, ¬ First k line rest := by
  rw [← not_exists, ← exists_ofKind?_iff, ← Option.ne_none_iff_exists', not_not]

theorem comment_infix {d : Directive} (h : ofKind? k line = some d) :
    ∃ gap, (∀ c ∈ gap, isBlank c = true) ∧ '/' :: '/' :: (gap ++ k.keyword) <:+: line := by
  obtain ⟨-, rest, -, -, ⟨cs, hcs, ⟨⟨gap, hgap, rfl⟩, -⟩, -⟩, -⟩ := first_of_ofKind? h
  refine ⟨gap, hgap, List.IsInfix.trans ?_ hcs.isInfix⟩
  rw [← List.append_assoc]
  exact (List.prefix_append ('/' :: '/' :: (gap ++ k.keyword)) rest).isInfix

/-- A directive of the second kind is read where there is none of the first. -/
theorem parse?_eq_some_iff {line : String} {d : Directive} :
    parse? line = some d ↔
      ofKind? d.kind line.toList = some d ∧ (d.kind = .cond → ofKind? .inco line.toList = none) := by
  rw [parse?, Option.or_eq_some_iff]
  constructor
  · rintro (h | ⟨hnone, h⟩)
    · have hkind := (first_of_ofKind? h).1
      exact ⟨by rwa [hkind], fun hcond => by rw [hkind] at hcond; cases hcond⟩
    · exact ⟨by rwa [(first_of_ofKind? h).1], fun _ => hnone⟩
  · rintro ⟨h, hcond⟩
    cases hkind : d.kind with
    | inco => exact .inl (hkind ▸ h)
    | cond => exact .inr ⟨hcond hkind, hkind ▸ h⟩

theorem ofLines_eq (n : Nat) (ls : List (List Char)) :
    ofLines n ls = (ls.zipIdx n).filterMap fun l => (parse? (String.ofList l.1)).map (l.2, ·) := by
  induction ls generalizing n with
  | nil => rfl
  | cons l ls ih =>
      rw [ofLines, List.zipIdx_cons, List.filterMap_cons, ← ih]
      cases parse? (String.ofList l) <;> rfl

theorem mem_scan_iff {text : String} {i : Nat} {d : Directive} :
    (i, d) ∈ scan text ↔ ∃ line, (lines text.toList)[i]? = some line ∧ parse? (String.ofList line) = some d := by
  rw [scan, ofLines_eq, List.mem_filterMap]
  constructor
  · rintro ⟨⟨line, j⟩, hline, hfound⟩
    obtain ⟨d', hparse, ⟨⟩⟩ := Option.map_eq_some_iff.mp hfound
    exact ⟨line, List.mem_zipIdx_iff_getElem?.mp hline, hparse⟩
  · rintro ⟨line, hline, hparse⟩
    exact ⟨(line, i), List.mem_zipIdx_iff_getElem?.mpr hline, by rw [hparse]; rfl⟩

end Backmap.Directive
