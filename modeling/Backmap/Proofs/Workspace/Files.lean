import Backmap.Workspace

/-!
# Files that are written

What is put at a place of a tree is found there, and everything else as it was. So a file that has been written is at
the place that its path tells, while making folders leaves the files as they are.
-/

namespace Backmap.Workspace

variable {t t' : Workspace} {here place q : List String} {n : Node} {content : ByteArray} {path : String}

theorem find?_nil : t.find? [] = some .folder := if_pos rfl

theorem find?_replace (nodes : List (List String × Node)) (place : List String) (n : Node) (q : List String) :
    ((nodes.map fun (p, e) => if p = place then (p, n) else (p, e)).find? (·.1 == q)).map (·.2) =
      if q = place then (nodes.find? (·.1 == place)).map fun _ => n else (nodes.find? (·.1 == q)).map (·.2) := by
  induction nodes with
  | nil => simp
  | cons node nodes ih =>
      obtain ⟨p, e⟩ := node
      by_cases hplace : p = place <;> by_cases hq : p = q <;> by_cases he : q = place <;> simp_all

theorem find?_put (hplace : place ≠ []) (n : Node) (q : List String) :
    (t.put place n).find? q = if q = place then some n else t.find? q := by
  by_cases hq : q = []
  · rw [hq, find?_nil, find?_nil, if_neg hplace.symm]
  simp only [put, find?, hq, hplace, if_false]
  cases hnode : t.nodes.find? (·.1 == place) with
  | some old =>
      simp only [Option.map_some, Option.isSome_some, if_true, find?_replace, hnode]
  | none =>
      by_cases he : q = place
      · simp [he, hnode]
      · simp [he, List.find?_append, Ne.symm he]

/-! ## Where paths lead -/

/-- A component that names something in a folder. -/
def IsName (piece : String) : Prop :=
  piece ≠ "" ∧ piece ≠ "." ∧ piece ≠ ".." ∧ piece.utf8ByteSize ≤ maxName

/-- The components lead from `here` to a place. -/
inductive Leads (t : Workspace) : List String → List String → Place → Prop
  | here {here : List String} {n : Node} (h : t.find? here = some n) : Leads t here [] (.taken here n)
  | stay {here rest : List String} {piece : String} {p : Place} (hhere : t.find? here = some .folder)
      (hpiece : piece = "" ∨ piece = ".") (h : Leads t here rest p) : Leads t here (piece :: rest) p
  | up {here rest : List String} {p : Place} (hhere : t.find? here = some .folder)
      (h : Leads t here.dropLast rest p) : Leads t here (".." :: rest) p
  | down {here rest : List String} {piece : String} {n : Node} {p : Place} (hhere : t.find? here = some .folder)
      (hpiece : IsName piece) (hnext : t.find? (here ++ [piece]) = some n) (h : Leads t (here ++ [piece]) rest p) :
      Leads t here (piece :: rest) p
  | free {here : List String} {piece : String} (hhere : t.find? here = some .folder) (hpiece : IsName piece)
      (hnext : t.find? (here ++ [piece]) = none) : Leads t here [piece] (.free (here ++ [piece]))

theorem leads_of_follow {pieces : List String} {p : Place} (h : t.follow here pieces = .ok p) :
    Leads t here pieces p := by
  induction pieces generalizing here with
  | nil =>
      simp only [follow] at h
      split at h
      · next n hn =>
        cases h
        exact .here hn
      · cases h
  | cons piece rest ih =>
      simp only [follow] at h
      split at h
      · next hhere =>
        split at h
        · next hstay => exact .stay hhere hstay (ih h)
        · next hstay =>
          split at h
          · next hup =>
            subst hup
            exact .up hhere (ih h)
          · next hup =>
            split at h
            · cases h
            · next hlong =>
              have hpiece : IsName piece :=
                ⟨fun he => hstay (.inl he), fun he => hstay (.inr he), hup, Nat.not_lt.mp hlong⟩
              split at h
              · next hnext => exact .down hhere hpiece hnext (ih h)
              · next hnext =>
                cases h
                exact .free hhere hpiece hnext
              · cases h
      · cases h
      · cases h

theorem follow_of_leads {pieces : List String} {p : Place} (h : Leads t here pieces p) :
    t.follow here pieces = .ok p := by
  induction h with
  | here h => simp [follow, h]
  | stay hhere hpiece h ih => simp [follow, hhere, hpiece, ih]
  | up hhere h ih => simp [follow, hhere, ih]
  | down hhere hpiece hnext h ih =>
      obtain ⟨hempty, hdot, hdots, hlong⟩ := hpiece
      simp [follow, hhere, hempty, hdot, hdots, Nat.not_lt.mpr hlong, hnext, ih]
  | free hhere hpiece hnext =>
      obtain ⟨hempty, hdot, hdots, hlong⟩ := hpiece
      simp [follow, hhere, hempty, hdot, hdots, Nat.not_lt.mpr hlong, hnext]

namespace Place

def position : Place → List String
  | taken q _ => q
  | free q => q

def node? : Place → Option Node
  | taken _ n => some n
  | free _ => none

end Place

/-- Where a file can be written: over one that is there, or under a free name. -/
inductive Place.Takes (q : List String) : Place → Prop
  | file (content : ByteArray) : Takes q (.taken q (.file content))
  | free : Takes q (.free q)

theorem Leads.find?_eq {pieces : List String} {p : Place} (h : Leads t here pieces p) :
    t.find? p.position = p.node? := by
  induction h with
  | here h => exact h
  | stay hhere hpiece h ih => exact ih
  | up hhere h ih => exact ih
  | down hhere hpiece hnext h ih => exact ih
  | free hhere hpiece hnext => exact hnext

theorem Leads.put {pieces : List String} {p : Place} (h : Leads t here pieces p) (hq : p.Takes q)
    (content : ByteArray) :
    Leads (t.put q (.file content)) here pieces (.taken q (.file content)) := by
  have hfolder : t.find? q ≠ some .folder := by
    have hfind := h.find?_eq
    cases hq <;> simp_all [Place.position, Place.node?]
  have hne : q ≠ [] := by
    rintro rfl
    exact hfolder find?_nil
  -- every folder on the way is still there
  have hkept {place : List String} (hplace : t.find? place = some .folder) :
      (t.put q (.file content)).find? place = some .folder := by
    rw [find?_put hne, if_neg, hplace]
    rintro rfl
    exact hfolder hplace
  have hfound : (t.put q (.file content)).find? q = some (.file content) := by rw [find?_put hne, if_pos rfl]
  induction h with
  | here h =>
      cases hq
      exact .here hfound
  | stay hhere hpiece h ih => exact .stay (hkept hhere) hpiece (ih hq)
  | up hhere h ih => exact .up (hkept hhere) (ih hq)
  | @down here rest piece n p hhere hpiece hnext h ih =>
      by_cases he : here ++ [piece] = q
      · subst he
        exact .down (hkept hhere) hpiece hfound (ih hq)
      · exact .down (hkept hhere) hpiece (by rw [find?_put hne, if_neg he, hnext]) (ih hq)
  | free hhere hpiece hnext =>
      cases hq
      exact .down (hkept hhere) hpiece hfound (.here hfound)

theorem cwd_put (t : Workspace) (place : List String) (n : Node) : (t.put place n).cwd = t.cwd := by
  unfold put
  split <;> rfl

theorem locate_eq_ok {p : Place} : t.locate path = .ok p ↔
    ('\x00' ∉ path.toList ∧ path.toList ≠ [] ∧ path.utf8ByteSize ≤ maxPath) ∧
      Leads t (if Path.isAbsolute path.toList then [] else t.cwd) ((Path.pieces path.toList).map String.ofList) p := by
  simp only [locate]
  constructor
  · intro h
    split at h
    · cases h
    · split at h
      · cases h
      · split at h
        · cases h
        · next hnul hempty hlong =>
          split at h
          · next p' hfollow =>
            cases h
            exact ⟨⟨by simpa using hnul, hempty, Nat.not_lt.mp hlong⟩, leads_of_follow hfollow⟩
          · cases h
  · rintro ⟨⟨hnul, hempty, hlong⟩, h⟩
    simp [hnul, hempty, Nat.not_lt.mpr hlong, follow_of_leads h]

theorem locate_put {p : Place} (h : t.locate path = .ok p) (hq : p.Takes q) (content : ByteArray) :
    (t.put q (.file content)).locate path = .ok (.taken q (.file content)) := by
  obtain ⟨hpath, hleads⟩ := locate_eq_ok.mp h
  refine locate_eq_ok.mpr ⟨hpath, ?_⟩
  rw [cwd_put]
  exact hleads.put hq content

theorem write_eq_ok : t.write path content = .ok t' ↔
    ∃ p q, t.locate path = .ok p ∧ p.Takes q ∧ t' = t.put q (.file content) := by
  unfold write
  constructor
  · intro h
    split at h
    · cases h
    · cases h
    · next q old hlocate =>
      cases h
      exact ⟨_, q, hlocate, .file old, rfl⟩
    · next q hlocate =>
      cases h
      exact ⟨_, q, hlocate, .free, rfl⟩
  · rintro ⟨p, q, hlocate, hq, rfl⟩
    rw [hlocate]
    cases hq <;> rfl

/-! ## What files hold -/

/-- What the file at a place holds, if there is one. -/
def fileAt? (t : Workspace) (place : List String) : Option ByteArray :=
  match t.find? place with
  | some (.file content) => some content
  | _ => none

/-- The components of a path that name something. -/
def placeOf (path : String) : List String :=
  ((Path.pieces path.toList).map String.ofList).filter fun piece => piece ≠ "" ∧ piece ≠ "."

/-- A path whose text tells the place that it leads to. -/
def Direct (path : String) : Prop :=
  Path.isAbsolute path.toList = true ∧ ".." ∉ (Path.pieces path.toList).map String.ofList

instance (path : String) : Decidable (Direct path) := inferInstanceAs (Decidable (_ ∧ _))

/-- Without a way up, the components that name something make up the place. -/
theorem Leads.position_eq {pieces : List String} {p : Place} (h : Leads t here pieces p) (hup : ".." ∉ pieces) :
    p.position = here ++ pieces.filter fun piece => piece ≠ "" ∧ piece ≠ "." := by
  induction h with
  | here h => simp [Place.position]
  | stay hhere hpiece h ih =>
      rw [ih (mt (List.mem_cons_of_mem _) hup), List.filter_cons_of_neg]
      rcases hpiece with rfl | rfl <;> decide
  | up hhere h ih => exact absurd List.mem_cons_self hup
  | down hhere hpiece hnext h ih =>
      rw [ih (mt (List.mem_cons_of_mem _) hup), List.filter_cons_of_pos]
      · simp
      · simp [hpiece.1, hpiece.2.1]
  | free hhere hpiece hnext =>
      rw [List.filter_cons_of_pos]
      · rfl
      · simp [hpiece.1, hpiece.2.1]

theorem fileAt?_of_write (h : t.write path content = .ok t') (hpath : Direct path) :
    t'.fileAt? (placeOf path) = some content := by
  obtain ⟨p, q, hlocate, hq, rfl⟩ := write_eq_ok.mp h
  have hleads := (locate_eq_ok.mp (locate_put hlocate hq content)).2
  rw [if_pos hpath.1] at hleads
  have hplace : q = placeOf path := hleads.position_eq hpath.2
  have hfind : (t.put q (.file content)).find? q = some (.file content) := hleads.find?_eq
  rw [fileAt?, ← hplace, hfind]

theorem fileAt?_of_makeFolder (h : t.makeFolder path = .ok t') (place : List String) :
    t'.fileAt? place = t.fileAt? place := by
  unfold makeFolder at h
  split at h
  · cases h
  · cases h
  · next q hlocate =>
    cases h
    have hfree : t.find? q = none := (locate_eq_ok.mp hlocate).2.find?_eq
    have hne : q ≠ [] := by
      rintro rfl
      rw [find?_nil] at hfree
      cases hfree
    rw [fileAt?, fileAt?, find?_put hne]
    by_cases hplace : place = q
    · simp [hplace, hfree]
    · simp [hplace]

end Backmap.Workspace
