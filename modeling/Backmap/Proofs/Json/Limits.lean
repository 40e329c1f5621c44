import Backmap.Proofs.Json.Scalars

/-!
# What asks too much of the reader

Where a text is neither read nor told to be no JSON, the text itself shows why: it has a run of more digits than a
numeral may have, or more openings of containers than may lie in one another.
-/

namespace Backmap.Json

variable {α β : Type} {dialect : Dialect} {room : Nat} {cs rest : List Char}

def isOpening (c : Char) : Bool := c = '[' || c = '\x7b'

/-- There are `n` digits in a row, which are too many for a numeral. -/
def LongRun (n : Nat) (cs : List Char) : Prop :=
  Numeral.limit < n ∧ ∃ ds, ds <:+: cs ∧ ds.length = n ∧ ∀ c ∈ ds, isAsciiDigit c = true

/-- What reading a text can come to, with `room` levels left. -/
structure Bounded (room : Nat) (cs : List Char) (r : Result α) : Prop where
  suffix : ∀ a rest, r = .ok (a, rest) → rest <:+ cs
  number : ∀ e, r = .error (.number e) → ∃ n, e = .tooLong n ∧ LongRun n cs
  deep : ∀ container, r = .error (.tooDeep container) → room < cs.countP isOpening

theorem bounded_ok (a : α) (h : rest <:+ cs) : Bounded room cs (.ok (a, rest)) := by
  refine ⟨fun _ _ he => ?_, nofun, nofun⟩
  cases he
  exact h

theorem bounded_here (reason : Reason) (left : Nat) : Bounded room cs (.error (.here reason left) : Result α) :=
  ⟨nofun, nofun, nofun⟩

theorem Bounded.mono {inner : List Char} {r : Result α} (h : Bounded room inner r) (hs : inner <:+ cs) :
    Bounded room cs r := by
  refine ⟨fun a rest he => (h.suffix a rest he).trans hs, fun e he => ?_, fun container he => ?_⟩
  · obtain ⟨n, hn, hlimit, ds, hds, hrun⟩ := h.number e he
    exact ⟨n, hn, hlimit, ds, hds.trans hs.isInfix, hrun⟩
  · exact Nat.lt_of_lt_of_le (h.deep container he) (hs.sublist.countP_le)

theorem Bounded.deeper {r : Result α} (h : Bounded room cs r) {c : Char} (hc : isOpening c = true) :
    Bounded (room + 1) (c :: cs) r := by
  have hcons := h.mono (List.suffix_cons c cs)
  refine ⟨hcons.suffix, hcons.number, fun container he => ?_⟩
  rw [List.countP_cons_of_pos hc]
  exact Nat.succ_lt_succ (h.deep container he)

theorem Bounded.error {e : Problem} (h : Bounded room cs (.error e : Result α)) :
    Bounded room cs (.error e : Result β) :=
  ⟨nofun, fun _ he => h.number _ (congrArg Except.error (Except.error.inj he)),
    fun _ he => h.deep _ (congrArg Except.error (Except.error.inj he))⟩

theorem Bounded.map {r : Result α} (h : Bounded room cs r) (f : α → β) :
    Bounded room cs (r.map fun (a, rest) => (f a, rest)) := by
  cases r with
  | error e => exact h.error
  | ok a => exact bounded_ok (f a.1) (h.suffix a.1 a.2 rfl)

theorem skipSpace_suffix (cs : List Char) : skipSpace cs <:+ cs := List.dropWhile_suffix isSpace

/-! ## Strings -/

theorem codeUnit_error {e : Problem} (h : codeUnit dialect cs = .error e) : ∃ reason left, e = .here reason left := by
  unfold codeUnit at h
  split at h
  · exact ⟨_, _, (Except.error.inj h).symm⟩
  split at h
  · exact ⟨_, _, (Except.error.inj h).symm⟩
  split at h
  · split at h
    · split at h
      · exact ⟨_, _, (Except.error.inj h).symm⟩
      · split at h <;> cases h
    · cases h
  · cases h

theorem string_bounded (start : List Char) (skip : Nat) (done cs : List Char) :
    Bounded room cs (string dialect start skip done cs) := by
  fun_induction string dialect start skip done cs with
  | case1 => exact bounded_here _ _
  | case2 _ _ _ _ ih => exact ih.mono (List.suffix_cons _ _)
  | case3 => exact bounded_ok _ (List.suffix_cons _ _)
  | case4 => exact bounded_here _ _
  | case5 _ _ _ hunit =>
      obtain ⟨reason, left, rfl⟩ := codeUnit_error hunit
      exact bounded_here reason left
  | case6 _ _ _ _ _ _ ih => exact ih.mono (List.suffix_cons _ _)
  | case7 _ _ _ _ _ _ _ ih => exact ih.mono (List.suffix_cons _ _)
  | case8 => exact bounded_here _ _
  | case9 => exact bounded_here _ _
  | case10 _ _ _ _ _ _ ih => exact ih.mono (List.suffix_cons _ _)

/-! ## Numbers -/

theorem whole?_eq_some {ds : List Char} (h : whole? cs = some (ds, rest)) :
    cs = ds ++ rest ∧ ∀ c ∈ ds, isAsciiDigit c = true := by
  unfold whole? at h
  split at h
  · cases h
    exact ⟨rfl, by simp; decide⟩
  · dsimp only at h
    split at h
    · cases h
    · cases h
      exact ⟨List.takeWhile_append_dropWhile.symm, fun c => List.mem_takeWhile_imp⟩

theorem fraction?_suffix (cs : List Char) : (fraction? cs).elim cs (·.2) <:+ cs := by
  unfold fraction?
  split
  · dsimp only
    split
    · exact List.suffix_rfl
    · exact (List.dropWhile_suffix isAsciiDigit).trans (List.suffix_cons _ _)
  · exact List.suffix_rfl

theorem splitSign_suffix (cs : List Char) : (Numeral.splitSign cs).2 <:+ cs := by
  unfold Numeral.splitSign
  split
  · exact List.suffix_cons _ _
  · exact List.suffix_cons _ _
  · exact List.suffix_rfl

theorem exponent?_suffix (cs : List Char) : ((exponent? cs).getD (0, cs)).2 <:+ cs := by
  unfold exponent?
  split
  · next e cs =>
    split
    · dsimp only
      split
      · exact List.suffix_rfl
      · exact ((List.dropWhile_suffix isAsciiDigit).trans (splitSign_suffix cs)).trans (List.suffix_cons e cs)
    · exact List.suffix_rfl
  · exact List.suffix_rfl

theorem unsigned_bounded (start : List Char) (negative : Bool) (cs : List Char) :
    Bounded room cs (unsigned start negative cs) := by
  unfold unsigned
  split
  · exact bounded_here _ _
  · next ds rest hwhole =>
    obtain ⟨rfl, hds⟩ := whole?_eq_some hwhole
    split
    · cases hof : Numeral.ofDigits ds with
      | ok n => exact bounded_ok _ (List.suffix_append ds rest)
      | error e =>
          refine ⟨nofun, fun _ he => ?_, nofun⟩
          cases he
          unfold Numeral.ofDigits at hof
          split at hof
          · cases hof
          · next hlong =>
            cases hof
            exact ⟨ds.length, rfl, Nat.lt_of_not_le hlong, ds, (List.prefix_append ds rest).isInfix, rfl, hds⟩
    · have hrest := (exponent?_suffix _).trans (fraction?_suffix rest)
      dsimp only
      generalize (exponent? _).getD _ = power at hrest ⊢
      exact bounded_ok _ (hrest.trans (List.suffix_append ds rest))

theorem number_bounded (cs : List Char) : Bounded room cs (number cs) := by
  unfold number
  split
  · exact (unsigned_bounded _ true _).mono (List.suffix_cons _ _)
  · exact unsigned_bounded _ false _

/-! ## Values -/

theorem suffix_of_skipSpace {c : Char} {tail : List Char} (h : skipSpace rest = c :: tail) (hs : rest <:+ cs) :
    tail <:+ cs :=
  ((List.suffix_cons c tail).trans (h ▸ skipSpace_suffix rest)).trans hs

section Step

variable {fuel : Nat} (hvalue : ∀ room cs, Bounded room cs (value dialect fuel room cs))
  (hitems : ∀ room done cs, Bounded room cs (items dialect fuel room done cs))
  (hmembers : ∀ room done cs, Bounded room cs (members dialect fuel room done cs))

include hitems hmembers in
theorem value_bounded (room : Nat) (cs : List Char) : Bounded room cs (value dialect (fuel + 1) room cs) := by
  unfold value
  split
  · exact ((string_bounded _ 0 [] _).mono (List.suffix_cons _ _)).map str
  · split
    · exact ⟨nofun, nofun, fun _ _ => by simp [isOpening]⟩
    · split
      · next hspace => exact bounded_ok _ (suffix_of_skipSpace hspace (List.suffix_cons _ _))
      · exact ((hmembers _ [] _).mono (skipSpace_suffix _)).deeper rfl
  · split
    · exact ⟨nofun, nofun, fun _ _ => by simp [isOpening]⟩
    · split
      · next hspace => exact bounded_ok _ (suffix_of_skipSpace hspace (List.suffix_cons _ _))
      · exact ((hitems _ [] _).mono (skipSpace_suffix _)).deeper rfl
  · exact bounded_ok _ ⟨['n', 'u', 'l', 'l'], rfl⟩
  · exact bounded_ok _ ⟨['t', 'r', 'u', 'e'], rfl⟩
  · exact bounded_ok _ ⟨['f', 'a', 'l', 's', 'e'], rfl⟩
  · exact bounded_ok _ ⟨['N', 'a', 'N'], rfl⟩
  · exact bounded_ok _ ⟨['I', 'n', 'f', 'i', 'n', 'i', 't', 'y'], rfl⟩
  · exact bounded_ok _ ⟨['-', 'I', 'n', 'f', 'i', 'n', 'i', 't', 'y'], rfl⟩
  · exact number_bounded cs

include hvalue hitems in
theorem items_bounded (room : Nat) (done : List Json) (cs : List Char) :
    Bounded room cs (items dialect (fuel + 1) room done cs) := by
  have hfirst := hvalue room cs
  unfold items
  split
  · next e he => exact (he ▸ hfirst).error
  · next v rest hv =>
    have hrest := hfirst.suffix v rest hv
    split
    · next hspace => exact bounded_ok _ (suffix_of_skipSpace hspace hrest)
    · next tail hspace =>
      exact (hitems room _ _).mono ((skipSpace_suffix tail).trans (suffix_of_skipSpace hspace hrest))
    · exact bounded_here _ _

include hvalue hmembers in
theorem members_bounded (room : Nat) (done : List (String × Json)) (cs : List Char) :
    Bounded room cs (members dialect (fuel + 1) room done cs) := by
  unfold members
  split
  · next quoted =>
    have hkey : Bounded room ('"' :: quoted) (string dialect ('"' :: quoted) 0 [] quoted) :=
      (string_bounded _ 0 [] quoted).mono (List.suffix_cons '"' quoted)
    split
    · next e he => exact (he ▸ hkey).error
    · next key rest hk =>
      have hrest := hkey.suffix key rest hk
      split
      · next colon hspace =>
        have hcolon := (skipSpace_suffix colon).trans (suffix_of_skipSpace hspace hrest)
        have hfirst := (hvalue room (skipSpace colon)).mono hcolon
        split
        · next e he => exact (he ▸ hfirst).error
        · next v rest hv =>
          have hrest := hfirst.suffix v rest hv
          split
          · next hspace => exact bounded_ok _ (suffix_of_skipSpace hspace hrest)
          · next tail hspace =>
            exact (hmembers room _ _).mono ((skipSpace_suffix tail).trans (suffix_of_skipSpace hspace hrest))
          · exact bounded_here _ _
      · exact bounded_here _ _
  · exact bounded_here _ _

end Step

/-- By induction on the fuel, which all three readers hand down. -/
theorem bounded (fuel : Nat) :
    (∀ room cs, Bounded room cs (value dialect fuel room cs)) ∧
    (∀ room done cs, Bounded room cs (items dialect fuel room done cs)) ∧
    ∀ room done cs, Bounded room cs (members dialect fuel room done cs) := by
  induction fuel with
  | zero => exact ⟨fun _ _ => bounded_here _ _, fun _ _ _ => bounded_here _ _, fun _ _ _ => bounded_here _ _⟩
  | succ fuel ih =>
      obtain ⟨hvalue, hitems, hmembers⟩ := ih
      exact ⟨value_bounded hitems hmembers, items_bounded hvalue hitems, members_bounded hvalue hmembers⟩

/-! ## Documents -/

theorem value_of_document {e : Problem} (h : document dialect cs = .error e)
    (he : ∀ reason left, e ≠ .here reason left) :
    value dialect (2 * cs.length + 2) dialect.room (skipSpace cs) = .error e := by
  unfold document at h
  split at h
  · exact absurd (Except.error.inj h).symm (he _ _)
  · split at h
    · next e' hv => rw [hv, Except.error.inj h]
    · split at h
      · cases h
      · exact absurd (Except.error.inj h).symm (he _ _)

theorem document_of_read {text : String} {e : Error} (h : read dialect text = .error e) :
    ∃ p, document dialect text.toList = .error p ∧ p.locate text.toList = e := by
  unfold read at h
  cases hd : document dialect text.toList with
  | ok v =>
      rw [hd] at h
      cases h
  | error p =>
      rw [hd] at h
      exact ⟨p, rfl, Except.error.inj h⟩

theorem longRun_of_read {text : String} {e : Numeral.Error} (h : read dialect text = .error (.number e)) :
    ∃ n, e = .tooLong n ∧ LongRun n text.toList := by
  obtain ⟨p, hd, hp⟩ := document_of_read h
  cases p with
  | number e' =>
      cases hp
      have hvalue := value_of_document hd nofun
      exact (((bounded _).1 dialect.room _).mono (skipSpace_suffix _)).number e hvalue
  | here reason left => cases hp
  | tooDeep container => cases hp

theorem countP_isOpening_of_read {text : String} {container : Container}
    (h : read dialect text = .error (.tooDeep container)) : dialect.room < text.toList.countP isOpening := by
  obtain ⟨p, hd, hp⟩ := document_of_read h
  cases p with
  | tooDeep container' =>
      cases hp
      have hvalue := value_of_document hd nofun
      exact (((bounded _).1 dialect.room _).mono (skipSpace_suffix _)).deep container hvalue
  | here reason left => cases hp
  | number e => cases hp

end Backmap.Json
