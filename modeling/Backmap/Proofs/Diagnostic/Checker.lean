import Backmap.Diagnostic.Checker
import Backmap.Proofs.Overlay.Loaders

/-!
# Elements of the checker's output

What an element of the array gives depends on the element alone. A malformed one gives nothing, and the others are read
as if it were not there. Only an infinite line or character of an element ends the reading of all of them.
-/

namespace Backmap

variable {σ α β : Type}

/-- The value at the end of a way of keys through objects. -/
def Json.at? : List String → Json → Option Json
  | [], v => some v
  | key :: keys, .obj members => (find? key members).bind (at? keys)
  | _ :: _, _ => none

theorem Json.at?_cons (key : String) (keys : List String) (v : Json) :
    v.at? (key :: keys) = (v.at? [key]).bind (at? keys) := by
  cases v with
  | obj members => cases h : find? key members <;> simp [at?, h]
  | _ => rfl

theorem Overlay.Overtaxes.read_ne_ok {dialect : Json.Dialect} {text : String} {f : Fault}
    (h : Overtaxes dialect text f) (v : Json) :
    Json.read dialect text ≠ .ok v := by
  rcases h with ⟨n, -, hr, -⟩ | ⟨container, -, hr, -⟩ <;> simp [hr]

theorem Overlay.Overtaxes.unique {dialect : Json.Dialect} {text : String} {f f' : Fault}
    (h : Overtaxes dialect text f) (h' : Overtaxes dialect text f') : f = f' := by
  rcases h with ⟨n, -, hr, rfl⟩ | ⟨container, -, hr, rfl⟩ <;>
    rcases h' with ⟨n', -, hr', rfl⟩ | ⟨container', -, hr', rfl⟩ <;> cases hr.symm.trans hr' <;> rfl

namespace Checker

open Backmap.Task

/-! ## What an element says -/

/-- The whole numbers that values stand for. -/
inductive Counts : Json → Int → Prop
  | int (n : Int) : Counts (.int n) n
  | bool (b : Bool) : Counts (.bool b) b.toNat
  | float (negative : Bool) (m : Nat) (e : Int) :
      Counts (.float (.finite negative m e)) (Binary64.truncate negative m e)
  | str {s : String} {n : Int} : Numeral.read s = .ok n → Counts (.str s) n

def Infinite (v : Json) : Prop := ∃ negative, v = .float (.infinite negative)

/-- The element is that of a diagnostic. -/
structure Finds (file : String) (item : Json) (d : Diagnostic) : Prop where
  file : d.file = file
  line : ∃ v, item.at? ["range", "start", "line"] = some v ∧ Counts v d.line
  column : ∃ n, Counts ((item.at? ["range", "start", "character"]).getD (.int 0)) n ∧ d.column = some n
  message : ∃ v, item.at? ["message"] = some v ∧ d.message = v.display
  severity : d.severity = .ofCode ((item.at? ["severity"]).getD .null)
  source : d.source =
    if ((item.at? ["source"]).getD .null).isTruthy then (item.at? ["source"]).getD .null else .str "inco"
  code : d.code = (item.at? ["code"]).getD .null

/-- The line of the element is infinite, or it is a number and the character is infinite. What else the element holds
does not matter. -/
def Boundless (item : Json) : Prop :=
  ∃ line, item.at? ["range", "start", "line"] = some line ∧
    (Infinite line ∨ (∃ n, Counts line n) ∧ ∃ v, item.at? ["range", "start", "character"] = some v ∧ Infinite v)

def Malformed (item : Json) : Prop := ¬ Boundless item ∧ ∀ file d, ¬ Finds file item d

/-- What an element gives: its diagnostic, nothing, or the fault that ends the reading. -/
inductive Yields (file : String) (item : Json) : Except Fault (List Diagnostic) → Prop
  | finding {d : Diagnostic} : Finds file item d → Yields file item (.ok [d])
  | nothing : Malformed item → Yields file item (.ok [])
  | fault : Boundless item → Yields file item (.error .infinite)

/-! ## One element -/

section Attempt

variable {x : Attempt α} {k : α → Attempt β}

theorem pure_eq_ok (a : α) : (pure a : Except Fault α) = .ok a := rfl

theorem bind_run_eq_ok {b : β} :
    (x >>= k).run = .ok (.ok b) ↔ ∃ a, x.run = .ok (.ok a) ∧ (k a).run = .ok (.ok b) := by
  rw [ExceptT.run_bind, bind_eq_ok]
  constructor
  · rintro ⟨defect | a, hx, hk⟩
    · cases hk
    · exact ⟨a, hx, hk⟩
  · rintro ⟨a, hx, hk⟩
    exact ⟨.ok a, hx, hk⟩

theorem bind_run_eq_error {f : Fault} :
    (x >>= k).run = .error f ↔ x.run = .error f ∨ ∃ a, x.run = .ok (.ok a) ∧ (k a).run = .error f := by
  rw [ExceptT.run_bind]
  rcases x.run with e | (defect | a)
  · simp [error_bind]
  · simp [ok_bind, pure_eq_ok]
  · simp [ok_bind]

end Attempt

variable {v u item : Json} {n : Int} {f : Fault} {key file : String} {d : Diagnostic}

theorem part_eq_ok : (part key v).run = .ok (.ok u) ↔ v.at? [key] = some u := by
  cases v with
  | obj members => cases h : Json.find? key members <;> simp [part, Json.at?, h, pure_eq_ok]
  | _ => simp [part, Json.at?, pure_eq_ok]

theorem part_ne_error : (part key v).run ≠ .error f := by
  cases v with
  | obj members => cases h : Json.find? key members <;> simp [part, h, pure_eq_ok]
  | _ => simp [part, pure_eq_ok]

theorem optional_eq_ok {found : Option Json} :
    (optional key v).run = .ok (.ok found) ↔ (∃ members, v = .obj members) ∧ found = v.at? [key] := by
  cases v with
  | obj members => simp [optional, Json.at?, pure_eq_ok, eq_comm]
  | _ => simp [optional, pure_eq_ok]

theorem optional_ne_error : (optional key v).run ≠ .error f := by
  cases v <;> simp [optional, pure_eq_ok]

theorem wholeNumber_eq_ok : (wholeNumber v).run = .ok (.ok n) ↔ Counts v n := by
  constructor
  · intro h
    unfold wholeNumber at h
    split at h
    · cases h
      exact .int _
    · cases h
      exact .bool _
    · cases h
      exact .float _ _ _
    · cases h
    · cases h
    · split at h
      · cases h
        exact .str ‹_›
      · cases h
    · cases h
  · rintro (_ | _ | _ | hs)
    · rfl
    · rfl
    · rfl
    · simp [wholeNumber, hs, pure_eq_ok]

theorem wholeNumber_eq_error : (wholeNumber v).run = .error f ↔ Infinite v ∧ f = .infinite := by
  constructor
  · intro h
    unfold wholeNumber at h
    split at h
    · cases h
    · cases h
    · cases h
    · cases h
    · cases h
      exact ⟨⟨_, rfl⟩, rfl⟩
    · split at h <;> cases h
    · cases h
  · rintro ⟨⟨negative, rfl⟩, rfl⟩
    rfl

theorem obj_of_at? {keys : List String} (h : v.at? (key :: keys) = some u) : ∃ members, v = .obj members := by
  cases v with
  | obj members => exact ⟨members, rfl⟩
  | _ => cases h

theorem at?_start {range start : Json} (hrange : item.at? ["range"] = some range)
    (hstart : range.at? ["start"] = some start) (keys : List String) :
    item.at? ("range" :: "start" :: keys) = start.at? keys := by
  rw [Json.at?_cons, hrange, Option.bind_some, Json.at?_cons, hstart, Option.bind_some]

theorem exists_start (h : item.at? ["range", "start", key] = some v) :
    ∃ range start, item.at? ["range"] = some range ∧ range.at? ["start"] = some start ∧ start.at? [key] = some v := by
  rw [Json.at?_cons] at h
  obtain ⟨range, hrange, h⟩ := Option.bind_eq_some_iff.mp h
  rw [Json.at?_cons] at h
  obtain ⟨start, hstart, h⟩ := Option.bind_eq_some_iff.mp h
  exact ⟨range, start, hrange, hstart, h⟩

theorem element_eq_ok : (element file item).run = .ok (.ok d) ↔ Finds file item d := by
  simp only [element, bind_run_eq_ok, part_eq_ok, wholeNumber_eq_ok, optional_eq_ok, ExceptT.run_pure, pure_eq_ok]
  constructor
  · rintro ⟨range, hrange, start, hstart, v, hv, line, hline, _, ⟨-, rfl⟩, column, hcolumn, message, hmessage,
      _, ⟨-, rfl⟩, _, ⟨-, rfl⟩, _, ⟨-, rfl⟩, h⟩
    have hat := at?_start hrange hstart
    cases h
    exact ⟨rfl, ⟨v, (hat _).trans hv, hline⟩, ⟨column, hat _ ▸ hcolumn, rfl⟩, ⟨message, hmessage, rfl⟩, rfl, rfl, rfl⟩
  · rintro ⟨rfl, ⟨v, hv, hline⟩, ⟨column, hcolumn, hd⟩, ⟨message, hmessage, hd'⟩, hseverity, hsource, hcode⟩
    obtain ⟨range, start, hrange, hstart, hv⟩ := exists_start hv
    rw [at?_start hrange hstart] at hcolumn
    -- both the element and its start have a part, so they are objects and can be asked for optional ones
    refine ⟨range, hrange, start, hstart, v, hv, d.line, hline, _, ⟨obj_of_at? hv, rfl⟩, column, hcolumn, message,
      hmessage, _, ⟨obj_of_at? hrange, rfl⟩, _, ⟨obj_of_at? hrange, rfl⟩, _, ⟨obj_of_at? hrange, rfl⟩, ?_⟩
    rw [← hd, ← hd', ← hseverity, ← hsource, ← hcode]

theorem infinite_getD {found : Option Json} : Infinite (found.getD (.int 0)) ↔ ∃ v, found = some v ∧ Infinite v := by
  cases found <;> simp [Infinite]

theorem element_eq_error : (element file item).run = .error f ↔ Boundless item ∧ f = .infinite := by
  simp only [element, bind_run_eq_error, part_eq_ok, wholeNumber_eq_ok, wholeNumber_eq_error, optional_eq_ok,
    ExceptT.run_pure, pure_eq_ok, part_ne_error, optional_ne_error, infinite_getD, false_or, reduceCtorEq, and_false,
    exists_false, or_false]
  constructor
  · rintro ⟨range, hrange, start, hstart, v, hv, h⟩
    have hat := at?_start hrange hstart
    rcases h with ⟨hinfinite, rfl⟩ | ⟨line, hline, _, ⟨-, rfl⟩, ⟨character, hcharacter, hinfinite⟩, rfl⟩
    · exact ⟨⟨v, (hat _).trans hv, .inl hinfinite⟩, rfl⟩
    · exact ⟨⟨v, (hat _).trans hv, .inr ⟨⟨line, hline⟩, character, (hat _).trans hcharacter, hinfinite⟩⟩, rfl⟩
  · rintro ⟨⟨v, hv, h⟩, rfl⟩
    obtain ⟨range, start, hrange, hstart, hv⟩ := exists_start hv
    refine ⟨range, hrange, start, hstart, v, hv, ?_⟩
    rcases h with hinfinite | ⟨⟨line, hline⟩, character, hcharacter, hinfinite⟩
    · exact .inl ⟨hinfinite, rfl⟩
    · rw [at?_start hrange hstart] at hcharacter
      exact .inr ⟨line, hline, _, ⟨obj_of_at? hv, rfl⟩, ⟨character, hcharacter, hinfinite⟩, rfl⟩

theorem Finds.refile (h : Finds file item d) (file' : String) : Finds file' item { d with file := file' } :=
  { h with file := rfl }

theorem Finds.not_boundless (h : Finds file item d) : ¬ Boundless item := by
  intro hb
  have hrun : (element file item).run = .error .infinite := element_eq_error.mpr ⟨hb, rfl⟩
  rw [element_eq_ok.mpr h] at hrun
  cases hrun

theorem malformed_of_defect {defect : Defect} (h : (element file item).run = .ok (.error defect)) :
    Malformed item := by
  constructor
  · intro hb
    have hrun : (element file item).run = .error .infinite := element_eq_error.mpr ⟨hb, rfl⟩
    rw [h] at hrun
    cases hrun
  · intro file' d hd
    have hrun := element_eq_ok.mpr (hd.refile file)
    rw [h] at hrun
    cases hrun

/-! ## All elements -/

/-- What the elements of an array with a single element give. -/
def alone (file : String) (item : Json) : Except Fault (List Diagnostic) :=
  (elements file [item] [] : Task (StateM Unit) (List Diagnostic)).outcome ()

theorem alone_eq (file : String) (item : Json) :
    alone file item = (element file item).run.map fun r => r.toOption.toList := by
  unfold alone elements
  rcases (element file item).run with f | (defect | d) <;> rfl

theorem yields_alone (file : String) (item : Json) : Yields file item (alone file item) := by
  rw [alone_eq]
  rcases h : (element file item).run with f | (defect | d)
  · obtain ⟨hb, rfl⟩ := element_eq_error.mp h
    exact .fault hb
  · exact .nothing (malformed_of_defect h)
  · exact .finding (element_eq_ok.mp h)

theorem Malformed.alone_eq (h : Malformed item) (file : String) : alone file item = .ok [] := by
  have hyields := yields_alone file item
  generalize alone file item = r at hyields
  cases hyields with
  | finding hd => exact absurd hd (h.2 _ _)
  | nothing _ => rfl
  | fault hb => exact absurd hb h.1

/-- What the elements give one after the other, each of them alone. -/
def piecewise (file : String) (items : List Json) : Except Fault (List Diagnostic) :=
  (items.mapM (alone file)).map List.flatten

theorem piecewise_append (file : String) (items items' : List Json) :
    piecewise file (items ++ items') =
      (piecewise file items).bind fun ds => (piecewise file items').map fun ds' => ds ++ ds' := by
  rw [piecewise, List.mapM_append]
  unfold piecewise
  cases items.mapM (alone file) with
  | error f => rfl
  | ok parts =>
      cases items'.mapM (alone file) with
      | error f => rfl
      | ok parts' => exact congrArg Except.ok List.flatten_append

theorem piecewise_cons (file : String) (item : Json) (items : List Json) :
    piecewise file (item :: items) =
      (alone file item).bind fun ds => (piecewise file items).map fun ds' => ds ++ ds' := by
  rw [piecewise, List.mapM_cons]
  unfold piecewise
  cases alone file item with
  | error f => rfl
  | ok ds => cases items.mapM (alone file) <;> rfl

theorem elements_gives (file : String) (items : List Json) (done : List Diagnostic) (w : σ) :
    (elements file items done).Gives w ((piecewise file items).map fun ds => done.reverse ++ ds) := by
  induction items generalizing done with
  | nil =>
      have hnil : (piecewise file []).map (fun ds => done.reverse ++ ds) = .ok done.reverse :=
        congrArg Except.ok (List.append_nil _)
      rw [hnil]
      exact gives_pure done.reverse
  | cons item items ih =>
      rw [piecewise_cons, Checker.alone_eq]
      unfold elements
      generalize piecewise file items = r at ih ⊢
      rcases (element file item).run with f | (defect | d)
      · exact gives_throw f
      · refine Gives.logged ?_
        have hrest := ih done
        cases r <;> exact hrest
      · have hrest := ih (d :: done)
        rw [List.reverse_cons] at hrest
        cases r with
        | error f => exact hrest
        | ok ds =>
            simp only [Except.map, List.append_assoc] at hrest
            exact hrest

theorem piecewise_eq_error {items : List Json} :
    piecewise file items = .error f ↔ f = .infinite ∧ ∃ item ∈ items, Boundless item := by
  induction items with
  | nil => simp [piecewise, Except.map, pure_eq_ok]
  | cons item items ih =>
      rw [piecewise_cons, List.exists_mem_cons_iff]
      have hyields := yields_alone file item
      generalize alone file item = r at hyields ⊢
      cases hyields with
      | finding hd => simpa [hd.not_boundless, Except.bind, map_eq_error] using ih
      | nothing hm => simpa [hm.1, Except.bind, map_eq_error] using ih
      | fault hb => simp [hb, Except.bind, eq_comm]

theorem piecewise_of_malformed {items : List Json} (h : ∀ item ∈ items, Malformed item) :
    piecewise file items = .ok [] := by
  induction items with
  | nil => rfl
  | cons item items ih =>
      obtain ⟨hitem, hitems⟩ := List.forall_mem_cons.mp h
      rw [piecewise_cons, hitem.alone_eq, ih hitems]
      rfl

/-- Malformed elements can come and go. -/
theorem piecewise_around {before bad after : List Json} (h : ∀ item ∈ bad, Malformed item) :
    piecewise file (before ++ bad ++ after) = piecewise file (before ++ after) := by
  rw [piecewise_append, piecewise_append, piecewise_of_malformed h, piecewise_append]
  cases piecewise file before <;> simp [Except.bind, Except.map]

theorem piecewise_singleton (file : String) (item : Json) : piecewise file [item] = alone file item := by
  rw [piecewise_cons]
  cases alone file item with
  | error f => rfl
  | ok ds => exact congrArg Except.ok (List.append_nil ds)

/-! ## The output -/

variable {dialect : Json.Dialect} {text : String} {items : List Json} {w : σ}

theorem parse_of_array (h : Json.read dialect text = .ok (.arr items)) :
    (parse dialect (some text) file).Gives w (piecewise file items) := by
  have hgives := elements_gives file items [] w
  simp only [parse, h]
  cases hr : piecewise file items <;> simpa [hr, Except.map] using hgives

theorem parse_of_overtaxes (h : Overlay.Overtaxes dialect text f) :
    (parse dialect (some text) file).Gives w (.error f) := by
  rcases h with ⟨n, -, hr, rfl⟩ | ⟨container, -, hr, rfl⟩ <;> simp only [parse, hr] <;> exact gives_throw _

theorem parse_of_other (h : ∀ f, ¬ Overlay.Overtaxes dialect text f)
    (harr : ∀ items, Json.read dialect text ≠ .ok (.arr items)) :
    (parse dialect (some text) file).Gives w (.ok []) := by
  cases hr : Json.read dialect text with
  | ok v =>
      simp only [parse, hr]
      cases v with
      | arr items => exact absurd hr (harr items)
      | _ => exact gives_pure []
  | error e =>
      cases e with
      | number e => exact absurd (Overlay.overtaxes_of_number hr) (h _)
      | tooDeep container => exact absurd (Overlay.overtaxes_of_tooDeep hr) (h _)
      | malformed reason line column position =>
          simp only [parse, hr]
          exact (gives_pure []).logged

/-- An output is read element by element. Reading it ends with a fault exactly if it asks too much of the JSON reader or
an element is boundless. An output that is no array gives nothing, and otherwise each element gives what it gives as the
only one. Other malformed elements, more of them or fewer change nothing. -/
theorem parse_piecewise (dialect : Json.Dialect) (file text : String) (w : σ) :
    ∃ r, (parse dialect (some text) file : Task (StateM σ) (List Diagnostic)).Gives w r ∧
      (∀ f, r = .error f ↔ Overlay.Overtaxes dialect text f ∨
        f = .infinite ∧ ∃ items, Json.read dialect text = .ok (.arr items) ∧ ∃ item ∈ items, Boundless item) ∧
      ((∀ f, ¬ Overlay.Overtaxes dialect text f) → (∀ items, Json.read dialect text ≠ .ok (.arr items)) → r = .ok []) ∧
      ∀ items, Json.read dialect text = .ok (.arr items) →
        r = (items.mapM (alone file)).map List.flatten ∧
        (∀ item ∈ items, Yields file item (alone file item) ∧
          ∀ single, Json.read dialect single = .ok (.arr [item]) →
            (parse dialect (some single) file : Task (StateM σ) (List Diagnostic)).Gives w (alone file item)) ∧
        ∀ before bad after, items = before ++ bad ++ after → (∀ item ∈ bad, Malformed item) →
          ∀ bad' other, (∀ item ∈ bad', Malformed item) →
            Json.read dialect other = .ok (.arr (before ++ bad' ++ after)) →
            (parse dialect (some other) file : Task (StateM σ) (List Diagnostic)).Gives w r := by
  by_cases hover : ∃ f, Overlay.Overtaxes dialect text f
  · obtain ⟨f, hf⟩ := hover
    refine ⟨.error f, parse_of_overtaxes hf, fun f' => ?_, fun h => absurd hf (h f),
      fun items hr => absurd hr (hf.read_ne_ok _)⟩
    constructor
    · rintro ⟨⟩
      exact .inl hf
    · rintro (hf' | ⟨-, items, hr, -⟩)
      · rw [hf.unique hf']
      · exact absurd hr (hf.read_ne_ok _)
  have hnone : ∀ f, ¬ Overlay.Overtaxes dialect text f := fun f hf => hover ⟨f, hf⟩
  by_cases harr : ∃ items, Json.read dialect text = .ok (.arr items)
  · obtain ⟨items, hr⟩ := harr
    refine ⟨piecewise file items, parse_of_array hr, fun f => ?_, fun _ h => absurd hr (h items), fun items' hr' => ?_⟩
    · rw [piecewise_eq_error]
      simp [hnone, hr]
    · cases hr.symm.trans hr'
      refine ⟨rfl, fun item _ => ⟨yields_alone file item, fun single hs => ?_⟩, ?_⟩
      · rw [← piecewise_singleton]
        exact parse_of_array hs
      · rintro before bad after rfl hbad bad' other hbad' hother
        rw [piecewise_around hbad, ← piecewise_around hbad']
        exact parse_of_array hother
  · have hother : ∀ items, Json.read dialect text ≠ .ok (.arr items) := fun items hr => harr ⟨items, hr⟩
    refine ⟨.ok [], parse_of_other hnone hother, fun f => ?_, fun _ _ => rfl, fun items hr => absurd hr (hother items)⟩
    simp [hnone, hother]

def noticed (file : String) (line : Int) (message : String) : Diagnostic :=
  { file, line, message, severity := .information, column := some 0 }

theorem parse_piecewise_malformed :
    (parse .usual
      (some "[7,\x7b\"range\":\x7b\"start\":\x7b\"line\":\"3\"\x7d\x7d,\"message\":\"m\"\x7d,\x7b\x7d]") "a.go" :
      Task (StateM Unit) _).Gives () (.ok [noticed "a.go" 3 "m"]) ∧
    (parse .usual
      (some "[\x7b\"range\":\x7b\"start\":\x7b\"line\":\"3\"\x7d\x7d,\"message\":\"m\"\x7d,\x7b\x7d]") "a.go" :
      Task (StateM Unit) _).Gives () (.ok [noticed "a.go" 3 "m"]) := by
  obtain ⟨r, hgives, -, -, harray⟩ := parse_piecewise .usual "a.go"
    "[7,\x7b\"range\":\x7b\"start\":\x7b\"line\":\"3\"\x7d\x7d,\"message\":\"m\"\x7d,\x7b\x7d]" ()
  obtain ⟨hr, -, hbad⟩ := harray
    [.int 7, .obj [("range", .obj [("start", .obj [("line", .str "3")])]), ("message", .str "m")], .obj []]
    (by decide +kernel)
  have hfound : r = .ok [noticed "a.go" 3 "m"] := hr.trans rfl
  subst hfound
  refine ⟨hgives, hbad [] [.int 7] _ rfl ?_ [] _ (List.forall_mem_nil _) (by decide +kernel)⟩
  intro item hitem
  rw [List.mem_singleton.mp hitem]
  exact malformed_of_defect (show (element "a.go" (.int 7)).run = .ok (.error _) from rfl)

/-- With an infinite line in one element, the diagnostic of the other is lost. -/
theorem parse_infinite_line :
    (parse .usual (some ("[\x7b\"range\":\x7b\"start\":\x7b\"line\":1e400\x7d\x7d\x7d," ++
      "\x7b\"range\":\x7b\"start\":\x7b\"line\":3\x7d\x7d,\"message\":\"m\"\x7d]")) "a.go" :
      Task (StateM Unit) _).outcome () = .error .infinite ∧
    (parse .usual (some "[\x7b\"range\":\x7b\"start\":\x7b\"line\":3\x7d\x7d,\"message\":\"m\"\x7d]") "a.go" :
      Task (StateM Unit) _).outcome () = .ok [noticed "a.go" 3 "m"] := by
  have hone (text : String) : Json.read .usual text = .ok (.arr [
      .obj [("range", .obj [("start", .obj [("line", .int 3)])]), ("message", .str "m")]]) →
      (parse .usual (some text) "a.go" : Task (StateM Unit) _).outcome () = .ok [noticed "a.go" 3 "m"] := fun h =>
    (parse_of_array h).outcome_eq
  have hboth (text : String) : Json.read .usual text = .ok (.arr [
      .obj [("range", .obj [("start", .obj [("line", .float (.infinite false))])])],
      .obj [("range", .obj [("start", .obj [("line", .int 3)])]), ("message", .str "m")]]) →
      (parse .usual (some text) "a.go" : Task (StateM Unit) _).outcome () = .error .infinite := fun h =>
    (parse_of_array h).outcome_eq
  exact ⟨hboth _ (by decide +kernel), hone _ (by decide +kernel)⟩

end Checker

end Backmap
