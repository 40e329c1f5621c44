import Backmap.Proofs.Json.Scalars

/-!
# Reading what was written

A value is read back from what is written for it, on one line or indented. Excepted are floating-point numbers,
numbers that are too long, objects that give a key twice and values that lie too deep.
-/

namespace Backmap.Json

/-! ## Values that can be read back -/

mutual

/-- There is no floating-point number, no number that is too long and no object with a key twice in a value. -/
def Exact : Json → Prop
  | int n => Numeral.fits n = true
  | float _ => False
  | arr items => ExactItems items
  | obj members => (members.map (·.1)).Nodup ∧ ExactMembers members
  | _ => True

def ExactItems : List Json → Prop
  | [] => True
  | v :: rest => v.Exact ∧ ExactItems rest

def ExactMembers : List (String × Json) → Prop
  | [] => True
  | (_, v) :: rest => v.Exact ∧ ExactMembers rest

end

mutual

/-- How many arrays and objects lie in one another. -/
def depth : Json → Nat
  | arr items => depthItems items + 1
  | obj members => depthMembers members + 1
  | _ => 0

def depthItems : List Json → Nat
  | [] => 0
  | v :: rest => max v.depth (depthItems rest)

def depthMembers : List (String × Json) → Nat
  | [] => 0
  | (_, v) :: rest => max v.depth (depthMembers rest)

end

mutual

/-- A bound on the steps that reading a value takes. -/
def weight : Json → Nat
  | arr items => weightItems items + 1
  | obj members => weightMembers members + 1
  | _ => 1

def weightItems : List Json → Nat
  | [] => 0
  | v :: rest => v.weight + weightItems rest + 1

def weightMembers : List (String × Json) → Nat
  | [] => 0
  | (_, v) :: rest => v.weight + weightMembers rest + 1

end

/-- Items are set apart by a comma, and by nothing but spaces else. -/
structure Style.Spaced (style : Style) : Prop where
  separator : ∀ depth, ∃ gap, style.separator depth = ',' :: gap ∧ ∀ c ∈ gap, isSpace c = true
  before : ∀ depth, ∀ c ∈ style.before depth, isSpace c = true
  behind : ∀ depth, ∀ c ∈ style.behind depth, isSpace c = true

theorem oneLine_spaced : oneLine.Spaced := by
  refine ⟨fun depth => ⟨[' '], rfl, ?_⟩, fun depth => ?_, fun depth => ?_⟩ <;> simp [oneLine, isSpace]

theorem isSpace_of_mem_margin {depth : Nat} {c : Char} (h : c ∈ margin depth) : isSpace c = true := by
  rcases List.mem_cons.mp h with rfl | h
  · rfl
  · rw [List.eq_of_mem_replicate h]
    rfl

theorem indented_spaced : indented.Spaced :=
  ⟨fun depth => ⟨margin (depth + 1), rfl, fun _ => isSpace_of_mem_margin⟩, fun _ _ => isSpace_of_mem_margin,
    fun _ _ => isSpace_of_mem_margin⟩

/-- A character that a value may begin with. -/
def Opens (c : Char) : Prop := isSpace c = false ∧ c ≠ ']' ∧ c ≠ '\x7d' ∧ c ≠ '\ufeff'

instance (c : Char) : Decidable (Opens c) := inferInstanceAs (Decidable (_ ∧ _))

/-- In a style, a value is read back from what is written for it. -/
structure ReadsBack (style : Style) (v : Json) : Prop where
  head : ∀ depth, ∃ c cs, writeAt style depth v = c :: cs ∧ Opens c
  length : ∀ depth, v.weight ≤ 2 * (writeAt style depth v).length
  value : ∀ dialect fuel room depth rest, v.weight ≤ fuel → v.depth ≤ room → Stops rest →
    value dialect fuel room (writeAt style depth v ++ rest) = .ok (v, rest)

/-! ## Spaces -/

theorem skipSpace_append {gap cs : List Char} (hgap : ∀ c ∈ gap, isSpace c = true) {c : Char}
    (hc : isSpace c = false) : skipSpace (gap ++ c :: cs) = c :: cs :=
  Text.dropWhile_run hgap fun d hd => by cases hd; exact hc

theorem skipSpace_cons {c : Char} {cs : List Char} (hc : isSpace c = false) : skipSpace (c :: cs) = c :: cs :=
  List.dropWhile_cons_of_neg (by simp [hc])

theorem stops_cons {rest : List Char} {c : Char} (hc : isAsciiDigit c = false ∧ c ≠ '.' ∧ c ≠ 'e' ∧ c ≠ 'E') :
    Stops (c :: rest) := by
  intro d hd
  cases hd
  exact hc

theorem stops_of_isSpace {c : Char} (h : isSpace c = true) :
    isAsciiDigit c = false ∧ c ≠ '.' ∧ c ≠ 'e' ∧ c ≠ 'E' := by
  simp only [isSpace, Bool.or_eq_true, decide_eq_true_eq] at h
  rcases h with ((rfl | rfl) | rfl) | rfl <;> decide

/-- Behind a value there comes a space, a comma or the end of a container. -/
theorem stops_append {gap rest : List Char} {c : Char} (hgap : ∀ c ∈ gap, isSpace c = true)
    (hc : isAsciiDigit c = false ∧ c ≠ '.' ∧ c ≠ 'e' ∧ c ≠ 'E') : Stops (gap ++ c :: rest) := by
  cases gap with
  | nil => exact stops_cons hc
  | cons s gap => exact stops_cons (stops_of_isSpace (hgap s List.mem_cons_self))

/-! ## Parts with separators -/

section Parts

variable {part : List Char}

theorem intercalate_cons {sep : List Char} {parts : List (List Char)} (hne : parts ≠ []) :
    sep.intercalate (part :: parts) = part ++ (sep ++ sep.intercalate parts) := by
  obtain ⟨next, parts, rfl⟩ := List.exists_cons_of_ne_nil hne
  rw [List.intercalate_cons_cons, List.append_assoc]

theorem exists_intercalate_eq_cons {c : Char} {cs : List Char} (h : part = c :: cs) (sep : List Char)
    (parts : List (List Char)) :
    ∃ tail, sep.intercalate (part :: parts) = c :: tail := by
  subst h
  cases parts with
  | nil => exact ⟨cs, List.intercalate_singleton⟩
  | cons next parts => exact ⟨_, List.intercalate_cons_cons⟩

end Parts

/-! ## Values that hold no others -/

section Leaves

variable {style : Style}

/-- A value with one text at all depths, which is read in one step. -/
theorem readsBack_leaf {v : Json} (text : List Char) (hwrite : ∀ depth, writeAt style depth v = text)
    (hweight : v.weight = 1) (hhead : ∃ c cs, text = c :: cs ∧ Opens c)
    (hvalue : ∀ dialect fuel room rest, v.depth ≤ room → Stops rest →
      value dialect (fuel + 1) room (text ++ rest) = .ok (v, rest)) :
    ReadsBack style v := by
  refine ⟨fun depth => hwrite depth ▸ hhead, fun depth => ?_, ?_⟩
  · obtain ⟨c, cs, hcs, -⟩ := hhead
    rw [hwrite, hweight, hcs, List.length_cons]
    omega
  · rintro dialect (_ | fuel) room depth rest hfuel hroom hrest
    · omega
    · rw [hwrite]
      exact hvalue dialect fuel room rest hroom hrest

theorem readsBack_null : ReadsBack style null :=
  readsBack_leaf ['n', 'u', 'l', 'l'] (fun _ => rfl) rfl ⟨'n', _, rfl, by decide⟩ fun _ _ _ _ _ _ => rfl

theorem readsBack_bool (b : Bool) : ReadsBack style (bool b) := by
  cases b with
  | true => exact readsBack_leaf "true".toList (fun _ => rfl) rfl ⟨'t', _, rfl, by decide⟩ fun _ _ _ _ _ _ => rfl
  | false => exact readsBack_leaf "false".toList (fun _ => rfl) rfl ⟨'f', _, rfl, by decide⟩ fun _ _ _ _ _ _ => rfl

theorem readsBack_str (s : String) : ReadsBack style (str s) := by
  refine readsBack_leaf (writeString s) (fun _ => rfl) rfl ⟨'"', _, rfl, by decide⟩ fun dialect fuel room rest _ _ => ?_
  simp only [writeString, List.cons_append, List.append_assoc, value, string_write, List.nil_append]
  rfl

theorem value_eq_number {dialect : Dialect} {fuel room : Nat} {c : Char} {cs : List Char}
    (h : c.isDigit = true ∨ c = '-' ∧ cs.head? ≠ some 'I') :
    value dialect (fuel + 1) room (c :: cs) = number (c :: cs) := by
  have hne {d : Char} (hd : d.isDigit = false) (hminus : d ≠ '-') : c ≠ d := by
    rintro rfl
    rcases h with h | h
    · rw [h] at hd
      cases hd
    · exact hminus h.1
  unfold value
  split
  · next he => exact absurd (List.cons.inj he).1 (hne (by decide) (by decide))
  · next he => exact absurd (List.cons.inj he).1 (hne (by decide) (by decide))
  · next he => exact absurd (List.cons.inj he).1 (hne (by decide) (by decide))
  · next he => exact absurd (List.cons.inj he).1 (hne (by decide) (by decide))
  · next he => exact absurd (List.cons.inj he).1 (hne (by decide) (by decide))
  · next he => exact absurd (List.cons.inj he).1 (hne (by decide) (by decide))
  · next he => exact absurd (List.cons.inj he).1 (hne (by decide) (by decide))
  · next he => exact absurd (List.cons.inj he).1 (hne (by decide) (by decide))
  · next he =>
    obtain ⟨rfl, rfl⟩ := List.cons.inj he
    rcases h with h | h
    · cases h
    · exact absurd rfl h.2
  · rfl

theorem opens_of_isDigit {d : Char} (hd : d.isDigit = true) : Opens d := by
  refine ⟨?_, ?_, ?_, ?_⟩
  · refine Bool.eq_false_iff.mpr fun hspace => ?_
    simp only [isSpace, Bool.or_eq_true, decide_eq_true_eq] at hspace
    rcases hspace with ((rfl | rfl) | rfl) | rfl <;> cases hd
  all_goals
    rintro rfl
    cases hd

theorem exists_cons_write (n : Int) : ∃ c cs, (Numeral.write n).toList = c :: cs ∧ Opens c ∧
    ∀ rest : List Char, c.isDigit = true ∨ c = '-' ∧ (cs ++ rest).head? ≠ some 'I' := by
  obtain ⟨d, ds, hds⟩ := List.exists_cons_of_ne_nil (Numeral.digits_ne_nil n.natAbs)
  have hd : d.isDigit = true := Numeral.isDigit_of_mem_digits (hds ▸ List.mem_cons_self)
  rw [Numeral.toList_write, hds]
  split
  · refine ⟨'-', d :: ds, rfl, by decide, fun rest => .inr ⟨rfl, fun he => ?_⟩⟩
    rw [Option.some.inj he] at hd
    cases hd
  · exact ⟨d, ds, rfl, opens_of_isDigit hd, fun _ => .inl hd⟩

theorem readsBack_int {n : Int} (hfits : Numeral.fits n = true) : ReadsBack style (int n) := by
  obtain ⟨c, cs, hcs, hopens, hnumber⟩ := exists_cons_write n
  refine readsBack_leaf (Numeral.write n).toList (fun _ => rfl) rfl ⟨c, cs, hcs, hopens⟩
    fun dialect fuel room rest _ hrest => ?_
  rw [hcs, List.cons_append, value_eq_number (hnumber rest), ← List.cons_append, ← hcs]
  exact number_write hfits hrest

end Leaves

/-! ## Containers -/

section Containers

variable {dialect : Dialect} {style : Style} {gap behind : List Char}

/-- A container with parts, cut where its reader cuts it. -/
theorem exists_enclose_eq (hs : style.Spaced) {parts : List (List Char)} (hne : parts ≠ []) (opening closing : Char)
    (depth : Nat) : ∃ gap, (∀ c ∈ gap, isSpace c = true) ∧
      enclose opening closing (style.separator depth) (style.before depth) (style.behind depth) parts =
        opening :: (style.before depth ++ ((',' :: gap).intercalate parts ++ (style.behind depth ++ [closing]))) := by
  obtain ⟨gap, hsep, hgap⟩ := hs.separator depth
  refine ⟨gap, hgap, ?_⟩
  rw [enclose, hsep]
  · simp only [List.cons_append, List.append_assoc]
  · exact hne

/-- A container with parts is read back if its reader, behind the opening, reads back the parts. -/
theorem readsBack_enclose (hs : style.Spaced) {v : Json} (opening closing : Char) (hopening : Opens opening)
    {parts : Nat → List (List Char)} (hne : ∀ depth, parts depth ≠ [])
    (hwrite : ∀ depth, writeAt style depth v = enclose opening closing (style.separator depth) (style.before depth)
      (style.behind depth) (parts depth))
    (hlength : ∀ gap depth, v.weight ≤ 2 * ((',' :: gap).intercalate (parts depth)).length + 2)
    (hvalue : ∀ gap, (∀ c ∈ gap, isSpace c = true) → ∀ dialect fuel room depth rest, v.weight ≤ fuel →
      v.depth ≤ room →
      value dialect fuel room (opening :: (style.before depth ++ ((',' :: gap).intercalate (parts depth) ++
        (style.behind depth ++ closing :: rest)))) = .ok (v, rest)) : ReadsBack style v := by
  have henclose (depth : Nat) := exists_enclose_eq hs (hne depth) opening closing depth
  refine ⟨fun depth => ?_, fun depth => ?_, fun dialect fuel room depth rest hfuel hroom _ => ?_⟩
  · obtain ⟨gap, -, htext⟩ := henclose depth
    exact ⟨opening, _, (hwrite depth).trans htext, hopening⟩
  · obtain ⟨gap, -, htext⟩ := henclose depth
    have hweight := hlength gap depth
    simp only [hwrite, htext, List.length_cons, List.length_append]
    omega
  · obtain ⟨gap, hgap, htext⟩ := henclose depth
    have hread := hvalue gap hgap dialect fuel room depth rest hfuel hroom
    rw [hwrite, htext]
    simpa only [List.cons_append, List.append_assoc, List.nil_append] using hread

/-! ## Arrays -/

theorem writeItems_ne_nil {vs : List Json} (h : vs ≠ []) (style : Style) (depth : Nat) :
    writeItems style depth vs ≠ [] := by
  obtain ⟨v, vs, rfl⟩ := List.exists_cons_of_ne_nil h
  simp [writeItems]

theorem weightItems_le {vs : List Json} (h : ∀ v ∈ vs, ReadsBack style v) (gap : List Char) (depth : Nat) :
    weightItems vs ≤ 2 * ((',' :: gap).intercalate (writeItems style depth vs)).length + 1 := by
  induction vs with
  | nil => exact Nat.zero_le _
  | cons v vs ih =>
      obtain ⟨hv, hvs⟩ := List.forall_mem_cons.mp h
      have hlength := hv.length depth
      have hrest := ih hvs
      rw [writeItems, weightItems]
      by_cases hne : vs = []
      · rw [hne, writeItems, List.intercalate_singleton, weightItems]
        omega
      · rw [intercalate_cons (writeItems_ne_nil hne style depth), List.length_append, List.length_append,
          List.length_cons]
        omega

theorem items_write (hgap : ∀ c ∈ gap, isSpace c = true) (hbehind : ∀ c ∈ behind, isSpace c = true) {vs : List Json}
    (h : ∀ v ∈ vs, ReadsBack style v) (hne : vs ≠ []) (fuel : Nat) {room : Nat} (depth : Nat) (done : List Json)
    (rest : List Char) (hfuel : weightItems vs ≤ fuel) (hroom : depthItems vs ≤ room) :
    items dialect fuel room done ((',' :: gap).intercalate (writeItems style depth vs) ++ (behind ++ ']' :: rest)) =
      .ok (arr (done.reverse ++ vs), rest) := by
  -- The reader takes one step of fuel for each item, and the items before it grow by one.
  induction vs generalizing fuel done with
  | nil => exact absurd rfl hne
  | cons v vs ih =>
      obtain ⟨hv, hvs⟩ := List.forall_mem_cons.mp h
      obtain _ | fuel := fuel
      · cases hfuel
      rw [weightItems] at hfuel
      rw [depthItems] at hroom
      have hvalue (rest : List Char) (hrest : Stops rest) :=
        hv.value dialect fuel room depth rest (by omega) (by omega) hrest
      rw [writeItems]
      cases vs with
      | nil =>
          have hread := hvalue (behind ++ ']' :: rest) (stops_append hbehind (by decide))
          rw [writeItems, List.intercalate_singleton, items, hread]
          simp only [skipSpace_append hbehind (c := ']') rfl, List.reverse_cons]
      | cons w vs =>
          obtain ⟨c, cs, hcs, hopens⟩ := (hvs w List.mem_cons_self).head depth
          obtain ⟨tail, htail⟩ := exists_intercalate_eq_cons hcs (',' :: gap) (writeItems style depth vs)
          have hrest := ih hvs (List.cons_ne_nil w vs) fuel (v :: done) (by omega) (by omega)
          rw [writeItems, htail, List.cons_append] at hrest
          rw [intercalate_cons (writeItems_ne_nil (List.cons_ne_nil w vs) style depth), writeItems, htail,
            List.append_assoc, List.append_assoc, List.cons_append, items, hvalue _ (stops_cons (by decide))]
          simp only [skipSpace_cons (c := ',') rfl, List.cons_append, skipSpace_append hgap hopens.1, hrest,
            List.reverse_cons, List.append_assoc, List.nil_append]

theorem value_array {fuel room : Nat} {cs : List Char} (hgap : ∀ c ∈ gap, isSpace c = true) {c : Char}
    (hc : Opens c) :
    value dialect (fuel + 1) (room + 1) ('[' :: (gap ++ c :: cs)) = items dialect fuel room [] (c :: cs) := by
  simp only [value, skipSpace_append hgap hc.1]
  split
  · next he => exact absurd (List.cons.inj he).1 hc.2.1
  · rfl

theorem readsBack_arr (hs : style.Spaced) {vs : List Json} (h : ∀ v ∈ vs, ReadsBack style v) :
    ReadsBack style (arr vs) := by
  by_cases hne : vs = []
  · subst hne
    refine readsBack_leaf ['[', ']'] (fun _ => rfl) rfl ⟨'[', _, rfl, by decide⟩ ?_
    rintro dialect fuel (_ | room) rest hroom -
    · cases hroom
    · rfl
  refine readsBack_enclose hs '[' ']' (by decide) (fun depth => writeItems_ne_nil hne style (depth + 1))
    (fun _ => rfl) (fun gap depth => Nat.succ_le_succ (weightItems_le h gap (depth + 1))) ?_
  rintro gap hgap dialect (_ | fuel) (_ | room) depth rest hfuel hroom
  · cases hfuel
  · cases hfuel
  · cases hroom
  have hitems : items dialect _ _ _ _ = _ :=
    items_write hgap (hs.behind depth) h hne fuel (depth + 1) [] rest (Nat.le_of_succ_le_succ hfuel)
    (Nat.le_of_succ_le_succ hroom)
  obtain ⟨v, vs, rfl⟩ := List.exists_cons_of_ne_nil hne
  obtain ⟨c, cs, hcs, hopens⟩ := (h v List.mem_cons_self).head (depth + 1)
  obtain ⟨tail, htail⟩ := exists_intercalate_eq_cons hcs (',' :: gap) (writeItems style (depth + 1) vs)
  rw [writeItems, htail, List.cons_append] at hitems
  rw [writeItems, htail, List.cons_append, value_array (hs.before depth) hopens]
  exact hitems

/-! ## Objects -/

theorem insert_of_notMem {key : String} {v : Json} {done : List (String × Json)} (h : key ∉ done.map (·.1)) :
    insert key v done = done ++ [(key, v)] := by
  induction done with
  | nil => rfl
  | cons m done ih =>
      rw [List.map_cons, List.mem_cons, not_or] at h
      rw [insert, if_neg (Ne.symm h.1), ih h.2, List.cons_append]

theorem writeMembers_ne_nil {ms : List (String × Json)} (h : ms ≠ []) (style : Style) (depth : Nat) :
    writeMembers style depth ms ≠ [] := by
  obtain ⟨m, ms, rfl⟩ := List.exists_cons_of_ne_nil h
  simp [writeMembers]

theorem weightMembers_le {ms : List (String × Json)} (h : ∀ m ∈ ms, ReadsBack style m.2) (gap : List Char)
    (depth : Nat) :
    weightMembers ms ≤ 2 * ((',' :: gap).intercalate (writeMembers style depth ms)).length := by
  induction ms with
  | nil => exact Nat.zero_le _
  | cons m ms ih =>
      obtain ⟨hm, hms⟩ := List.forall_mem_cons.mp h
      have hlength := hm.length depth
      have hrest := ih hms
      rw [writeMembers, weightMembers]
      by_cases hne : ms = []
      · simp only [hne, writeMembers, List.intercalate_singleton, weightMembers, List.length_append, List.length_cons]
        omega
      · rw [intercalate_cons (writeMembers_ne_nil hne style depth)]
        simp only [List.length_append, List.length_cons]
        omega

theorem value_member {v : Json} (hv : ReadsBack style v) {fuel room : Nat} (depth : Nat) {rest : List Char}
    (hrest : Stops rest) (hfuel : v.weight ≤ fuel) (hroom : v.depth ≤ room) :
    value dialect fuel room (skipSpace (' ' :: (writeAt style depth v ++ rest))) = .ok (v, rest) := by
  obtain ⟨c, cs, hcs, hopens⟩ := hv.head depth
  have hspace : skipSpace (' ' :: c :: (cs ++ rest)) = c :: (cs ++ rest) :=
    (List.dropWhile_cons_of_pos rfl).trans (skipSpace_cons hopens.1)
  rw [hcs, List.cons_append, hspace, ← List.cons_append, ← hcs]
  exact hv.value dialect fuel room depth rest hfuel hroom hrest

theorem members_last {v : Json} (hv : ReadsBack style v) {fuel room : Nat} (depth : Nat) (k : String)
    (done : List (String × Json)) (hbehind : ∀ c ∈ behind, isSpace c = true) (rest : List Char)
    (hfuel : v.weight ≤ fuel) (hroom : v.depth ≤ room) :
    members dialect (fuel + 1) room done
        (writeString k ++ ':' :: ' ' :: (writeAt style depth v ++ (behind ++ '\x7d' :: rest))) =
      .ok (obj (insert k v done), rest) := by
  have hstops : Stops (behind ++ '\x7d' :: rest) := stops_append hbehind (by decide)
  have hvalue : value dialect _ _ _ = _ := value_member hv depth hstops hfuel hroom
  simp only [writeString, List.cons_append, List.append_assoc, members, string_write, List.nil_append,
    skipSpace_cons (c := ':') rfl, hvalue, skipSpace_append hbehind (c := '\x7d') rfl]

theorem members_next {v : Json} (hv : ReadsBack style v) {fuel room : Nat} (depth : Nat) (k : String)
    (done : List (String × Json)) (hgap : ∀ c ∈ gap, isSpace c = true) {c : Char} (hc : isSpace c = false)
    (cs : List Char) (hfuel : v.weight ≤ fuel) (hroom : v.depth ≤ room) :
    members dialect (fuel + 1) room done
        (writeString k ++ ':' :: ' ' :: (writeAt style depth v ++ ',' :: (gap ++ c :: cs))) =
      members dialect fuel room (insert k v done) (c :: cs) := by
  have hstops : Stops (',' :: (gap ++ c :: cs)) := stops_cons (by decide)
  have hvalue : value dialect _ _ _ = _ := value_member hv depth hstops hfuel hroom
  simp only [writeString, List.cons_append, List.append_assoc, members, string_write, List.nil_append,
    skipSpace_cons (c := ':') rfl, hvalue, skipSpace_cons (c := ',') rfl, skipSpace_append hgap hc]

theorem members_write (hgap : ∀ c ∈ gap, isSpace c = true) (hbehind : ∀ c ∈ behind, isSpace c = true)
    {ms : List (String × Json)} (h : ∀ m ∈ ms, ReadsBack style m.2) (hne : ms ≠ []) (fuel : Nat) {room : Nat}
    (depth : Nat) (done : List (String × Json)) (rest : List Char) (hkeys : ((done ++ ms).map (·.1)).Nodup)
    (hfuel : weightMembers ms ≤ fuel) (hroom : depthMembers ms ≤ room) :
    members dialect fuel room done
        ((',' :: gap).intercalate (writeMembers style depth ms) ++ (behind ++ '\x7d' :: rest)) =
      .ok (obj (done ++ ms), rest) := by
  induction ms generalizing fuel done with
  | nil => exact absurd rfl hne
  | cons m ms ih =>
      obtain ⟨k, v⟩ := m
      obtain ⟨hv : ReadsBack style v, hms⟩ := List.forall_mem_cons.mp h
      obtain _ | fuel := fuel
      · cases hfuel
      rw [weightMembers] at hfuel
      rw [depthMembers] at hroom
      have hkey : k ∉ done.map (·.1) := by
        rw [List.map_append] at hkeys
        exact fun hmem => (List.nodup_append.mp hkeys).2.2 k hmem k List.mem_cons_self rfl
      rw [writeMembers]
      cases ms with
      | nil =>
          rw [writeMembers, List.intercalate_singleton, List.append_assoc, List.cons_append, List.cons_append,
            members_last hv depth k done hbehind rest (by omega) (by omega), insert_of_notMem hkey]
      | cons next ms =>
          have hnext : ∃ tail, (',' :: gap).intercalate (writeMembers style depth (next :: ms)) = '"' :: tail :=
            exists_intercalate_eq_cons rfl _ _
          obtain ⟨tail, htail⟩ := hnext
          have hrest := ih hms (List.cons_ne_nil next ms) fuel (done ++ [(k, v)]) (by simpa using hkeys)
            (by omega) (by omega)
          rw [htail, List.cons_append] at hrest
          rw [intercalate_cons (writeMembers_ne_nil (List.cons_ne_nil next ms) style depth), htail]
          simp only [List.append_assoc, List.cons_append]
          rw [members_next hv depth k done hgap rfl _ (by omega) (by omega), insert_of_notMem hkey, hrest,
            List.append_assoc, List.singleton_append]

theorem value_object {fuel room : Nat} {cs : List Char} (hgap : ∀ c ∈ gap, isSpace c = true) :
    value dialect (fuel + 1) (room + 1) ('\x7b' :: (gap ++ '"' :: cs)) = members dialect fuel room [] ('"' :: cs) := by
  simp only [value, skipSpace_append hgap (c := '"') rfl]
  rfl

theorem readsBack_obj (hs : style.Spaced) {ms : List (String × Json)} (hkeys : (ms.map (·.1)).Nodup)
    (h : ∀ m ∈ ms, ReadsBack style m.2) : ReadsBack style (obj ms) := by
  by_cases hne : ms = []
  · subst hne
    refine readsBack_leaf ['\x7b', '\x7d'] (fun _ => rfl) rfl ⟨'\x7b', _, rfl, by decide⟩ ?_
    rintro dialect fuel (_ | room) rest hroom -
    · cases hroom
    · rfl
  refine readsBack_enclose hs '\x7b' '\x7d' (by decide) (fun depth => writeMembers_ne_nil hne style (depth + 1))
    (fun _ => rfl) (fun gap depth => Nat.succ_le_succ (Nat.le_succ_of_le (weightMembers_le h gap (depth + 1)))) ?_
  rintro gap hgap dialect (_ | fuel) (_ | room) depth rest hfuel hroom
  · cases hfuel
  · cases hfuel
  · cases hroom
  have hmembers : members dialect _ _ _ _ = _ := members_write hgap (hs.behind depth) h hne fuel (depth + 1) [] rest
    hkeys (Nat.le_of_succ_le_succ hfuel) (Nat.le_of_succ_le_succ hroom)
  obtain ⟨m, ms, rfl⟩ := List.exists_cons_of_ne_nil hne
  have hhead : ∃ tail, (',' :: gap).intercalate (writeMembers style (depth + 1) (m :: ms)) = '"' :: tail :=
    exists_intercalate_eq_cons rfl _ _
  obtain ⟨tail, htail⟩ := hhead
  rw [htail, List.cons_append] at hmembers
  rw [htail, List.cons_append, value_object (hs.before depth)]
  exact hmembers

end Containers

/-! ## All values -/

mutual

theorem readsBack {style : Style} (hs : style.Spaced) : ∀ {v : Json}, v.Exact → ReadsBack style v
  | null, _ => readsBack_null
  | bool b, _ => readsBack_bool b
  | int _, h => readsBack_int h
  | float _, h => h.elim
  | str s, _ => readsBack_str s
  | arr _, h => readsBack_arr hs (readsBack_items hs h)
  | obj _, h => readsBack_obj hs h.1 (readsBack_members hs h.2)

theorem readsBack_items {style : Style} (hs : style.Spaced) :
    ∀ {vs : List Json}, ExactItems vs → ∀ v ∈ vs, ReadsBack style v
  | [], _ => nofun
  | _ :: _, h => List.forall_mem_cons.mpr ⟨readsBack hs h.1, readsBack_items hs h.2⟩

theorem readsBack_members {style : Style} (hs : style.Spaced) :
    ∀ {ms : List (String × Json)}, ExactMembers ms → ∀ m ∈ ms, ReadsBack style m.2
  | [], _ => nofun
  | (_, _) :: _, h => List.forall_mem_cons.mpr ⟨readsBack hs h.1, readsBack_members hs h.2⟩

end

/-! ## Documents -/

variable {dialect : Dialect}

theorem document_of_ok {c : Char} {cs rest : List Char} {v : Json} (h : Opens c)
    (hvalue : value dialect (2 * (c :: cs).length + 2) dialect.room (c :: cs) = .ok (v, rest))
    (hrest : skipSpace rest = []) : document dialect (c :: cs) = .ok v := by
  rw [document, List.head?_cons, if_neg fun he => h.2.2.2 (Option.some.inj he), skipSpace_cons h.1, hvalue]
  simp only [hrest]

theorem document_of_error {c : Char} {cs : List Char} {e : Problem} (h : Opens c)
    (hvalue : value dialect (2 * (c :: cs).length + 2) dialect.room (c :: cs) = .error e) :
    document dialect (c :: cs) = .error e := by
  rw [document, List.head?_cons, if_neg fun he => h.2.2.2 (Option.some.inj he), skipSpace_cons h.1, hvalue]

theorem read_write_append {style : Style} (hs : style.Spaced) {v : Json} (h : v.Exact)
    (hdepth : v.depth ≤ dialect.room) (tail : List Char) (htail : ∀ c ∈ tail, isSpace c = true) :
    read dialect (v.write style ++ String.ofList tail) = .ok v := by
  have hv := readsBack hs h
  obtain ⟨c, cs, hcs, hopens⟩ := hv.head 0
  have hweight := hv.length 0
  have hstops : Stops tail := by
    cases tail with
    | nil => exact nofun
    | cons d tail => exact stops_cons (stops_of_isSpace (htail d List.mem_cons_self))
  have hlength : (c :: (cs ++ tail)).length = (writeAt style 0 v).length + tail.length := by simp [hcs]; omega
  have hvalue := hv.value dialect (2 * (c :: (cs ++ tail)).length + 2) dialect.room 0 tail (by omega) hdepth hstops
  rw [hcs, List.cons_append] at hvalue
  have hspaces : skipSpace tail = [] := List.dropWhile_eq_nil_iff.mpr htail
  rw [read, write, String.toList_append, String.toList_ofList, String.toList_ofList, hcs, List.cons_append,
    document_of_ok hopens hvalue hspaces]
  rfl

theorem read_write {style : Style} (hs : style.Spaced) {v : Json} (h : v.Exact)
    (hdepth : v.depth ≤ dialect.room) : read dialect (v.write style) = .ok v := by
  simpa using read_write_append hs h hdepth [] nofun

/-- Digits that are too many are a fault, and not a text that is no JSON. -/
theorem read_of_tooLong {ds : List Char} (hds : Text.Run isAsciiDigit ds) (hzero : ds.head? ≠ some '0')
    (hlong : ¬ ds.length ≤ Numeral.limit) :
    read dialect (String.ofList ds) = .error (.number (.tooLong ds.length)) := by
  have hwhole : whole? ds = some (ds, []) := by
    have hrun : whole? (ds ++ []) = some (ds, []) := whole?_run hds (.inl hzero) nofun
    rwa [List.append_nil] at hrun
  have hunsigned : unsigned ds false ds = .error (.number (.tooLong ds.length)) := by
    rw [unsigned_whole hwhole nofun, Numeral.ofDigits_of_not_le hlong]
    rfl
  obtain ⟨d, ds, rfl⟩ := List.exists_cons_of_ne_nil hds.1
  have hd : d.isDigit = true := hds.2 d List.mem_cons_self
  have hvalue (fuel : Nat) :
      value dialect (fuel + 1) dialect.room (d :: ds) = .error (.number (.tooLong (d :: ds).length)) := by
    rw [value_eq_number (.inl hd), number_of_isDigit hd, hunsigned]
  rw [read, String.toList_ofList, document_of_error (opens_of_isDigit hd) (hvalue _)]
  rfl

end Backmap.Json
