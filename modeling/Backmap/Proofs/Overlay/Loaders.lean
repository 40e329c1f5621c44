import Backmap.Proofs.Json.Limits
import Backmap.Proofs.Json.RoundTrip
import Backmap.Proofs.Overlay
import Backmap.Proofs.Path
import Backmap.Proofs.Text.Utf8
import Backmap.Proofs.Workspace

/-!
# The two ways of loading a table

Strict loading opens the document; tolerant loading asks first whether it is a file, and goes on without a table where
strict loading ends with a document that cannot be used. So both find the same tables in regular files, and a document
that is none is for strict loading only. Some faults are not about the document and end both.
-/

namespace Backmap

variable {σ α β : Type}

/-! ## Tasks that leave the state as it is -/

namespace Task

/-- The task leaves the state as it is and ends with `r`, whatever was told before. -/
def Gives (t : Task (StateM σ) α) (w : σ) (r : Except Fault α) : Prop :=
  ∀ log, t.Ends log w fun x w' => x = r ∧ w' = w

/-- How the task ends, with nothing told before. -/
def outcome (t : Task (StateM σ) α) (w : σ) : Except Fault α := ((t.run.run #[]).run w).1.1

variable {t : Task (StateM σ) β} {k : β → Task (StateM σ) α} {w : σ} {r : Except Fault α}

theorem Gives.outcome_eq {t : Task (StateM σ) α} (h : t.Gives w r) : t.outcome w = r := (h #[]).1

theorem gives_pure (a : α) : Gives (pure a : Task (StateM σ) α) w (.ok a) := fun _ => ⟨rfl, rfl⟩

theorem gives_throw (e : Fault) : Gives (throw e : Task (StateM σ) α) w (.error e) := fun _ => ⟨rfl, rfl⟩

theorem Gives.logged {t : Task (StateM σ) α} {level : Log.Level} {channel text : String} (h : t.Gives w r) :
    Gives (do Task.log level channel text; t) w r := fun _ => h _

theorem Gives.bind_ok {b : β} (ht : t.Gives w (.ok b)) (hk : (k b).Gives w r) : (t >>= k).Gives w r := by
  refine fun log => (ht log).bind ?_ ?_
  · rintro b' log' _ ⟨hb, rfl⟩
    cases hb
    exact hk log'
  · rintro e _ ⟨he, -⟩
    cases he

theorem Gives.bind_error {e : Fault} (ht : t.Gives w (.error e)) : (t >>= k).Gives w (.error e) := by
  refine fun log => (ht log).bind ?_ ?_
  · rintro b' log' _ ⟨hb, -⟩
    cases hb
  · rintro e' _ ⟨he, rfl⟩
    cases he
    exact ⟨rfl, rfl⟩

theorem Gives.attempt {t : Task (StateM σ) α} (h : t.Gives w r) : t.attempt.Gives w (.ok r) := fun log =>
  ends_attempt.mpr ((h log).mono fun _ _ hx => ⟨congrArg _ hx.1, hx.2⟩)

/-- The task leaves the state as it is, and how it ends does not depend on what was told before. -/
def Settled (t : Task (StateM σ) α) (w : σ) : Prop := t.Gives w (t.outcome w)

theorem Gives.settled {t : Task (StateM σ) α} (h : t.Gives w r) : t.Settled w := by
  rw [Settled, h.outcome_eq]
  exact h

theorem settled_lift {x : StateM σ (Except Fault α)} (h : (x.run w).2 = w) : Settled (Task.lift x) w :=
  Gives.settled (r := (x.run w).1) fun _ => ⟨rfl, h⟩

theorem Settled.bind (ht : t.Settled w) (hk : ∀ b, (k b).Settled w) : (t >>= k).Settled w := by
  unfold Settled at ht
  cases hr : t.outcome w with
  | ok b =>
      rw [hr] at ht
      exact (ht.bind_ok (hk b)).settled
  | error e =>
      rw [hr] at ht
      exact ht.bind_error.settled

end Task

/-! ## Where the document is -/

namespace Overlay

open Backmap.Task Backmap.Path

variable {machine : Machine (StateM σ)} {w : σ} {dialect : Json.Dialect} {cwd root : String} {s : Settings} {p : Tidy}

theorem firstHolding_settled (h : machine.Keeps (· = w)) (marker : String) (folders : List Tidy) :
    Settled (firstHolding machine marker folders) w := by
  induction folders with
  | nil => exact (gives_pure none).settled
  | cons folder rest ih =>
      refine (settled_lift (h.isFile _ w rfl)).bind fun b => ?_
      cases b with
      | true => exact (gives_pure _).settled
      | false => exact ih

theorem path_settled (h : machine.Keeps (· = w)) (root : String) (s : Settings) : Settled (path machine root s) w := by
  refine Settled.bind ?_ fun found => (gives_pure _).settled
  refine (settled_lift (h.isFile _ w rfl)).bind fun b => ?_
  cases b with
  | true => exact (gives_pure _).settled
  | false =>
      refine (Gives.attempt (settled_lift (h.folders _ w rfl))).settled.bind fun r => ?_
      cases r with
      | ok names => exact firstHolding_settled h _ _
      | error f =>
          cases f with
          | os e => exact (gives_pure none).logged.settled
          | _ => exact (gives_throw _).settled

/-! ## Loading -/

/-- What tolerant loading makes of the end of strict loading. -/
def tolerate : Except Fault Substitution → Except Fault (Option Substitution)
  | .ok table => .ok (some table)
  | .error (.overlay _ _) => .ok none
  | .error f => .error f

theorem tolerate_eq_some {r : Except Fault Substitution} {T : Substitution} :
    tolerate r = .ok (some T) ↔ r = .ok T := by
  unfold tolerate
  split <;> simp

theorem tolerate_eq_none {r : Except Fault Substitution} :
    tolerate r = .ok none ↔ ∃ f, r = .error f ∧ Tolerable f := by
  unfold tolerate Tolerable
  split <;> simp_all

theorem tolerate_eq_error {r : Except Fault Substitution} {f : Fault} :
    tolerate r = .error f ↔ r = .error f ∧ ¬ Tolerable f := by
  unfold tolerate
  split
  · exact ⟨nofun, fun h => nomatch h.1⟩
  · exact ⟨nofun, fun h => absurd ⟨_, _, (Except.error.inj h.1).symm⟩ h.2⟩
  · next g hg =>
    refine ⟨fun h => ?_, fun h => by rw [Except.error.inj h.1]⟩
    cases h
    exact ⟨rfl, fun ⟨name, reason, hf⟩ => hg name reason hf⟩

theorem loadStrict_gives (h : machine.Keeps (· = w)) (cwd root : String) (s : Settings) :
    (loadStrict machine cwd root s).Gives w (do
      let place ← (path machine root s).outcome w
      ofReading machine.json cwd place ((machine.read place.text).run w).1) := by
  have hp : Gives _ w _ := path_settled h root s
  cases hr : (path machine root s).outcome w with
  | error f =>
      rw [hr] at hp
      exact hp.bind_error
  | ok place =>
      rw [hr] at hp
      exact hp.bind_ok fun log => ofReading_ends h cwd place log

theorem load_gives (h : machine.Keeps (· = w)) (cwd root : String) (s : Settings) :
    (load machine cwd root s).Gives w (do
      let place ← (path machine root s).outcome w
      if ← ((machine.isFile place.text).run w).1 then tolerate ((loadStrict machine cwd root s).outcome w)
      else .ok none) := by
  have hp : Gives _ w _ := path_settled h root s
  cases hr : (path machine root s).outcome w with
  | error f =>
      rw [hr] at hp
      exact hp.bind_error
  | ok place =>
      rw [hr] at hp
      refine hp.bind_ok ?_
      have hi : Gives (Task.lift (machine.isFile place.text)) w ((machine.isFile place.text).run w).1 :=
        fun _ => ⟨rfl, h.isFile place.text w rfl⟩
      rw [ok_bind]
      cases hb : ((machine.isFile place.text).run w).1 with
      | error f =>
          rw [hb] at hi
          exact hi.bind_error
      | ok b =>
          rw [hb] at hi
          refine hi.bind_ok ?_
          cases b with
          | false => exact (gives_pure none).logged
          | true =>
              refine (Gives.attempt (loadStrict_gives h cwd root s).settled).bind_ok ?_
              rw [ok_bind]
              cases (loadStrict machine cwd root s).outcome w with
              | ok T => exact (gives_pure _).logged
              | error f =>
                  cases f with
                  | overlay name reason => exact (gives_pure none).logged
                  | _ => exact gives_throw _

/-! ## How both end -/

/-- The text asks too much of the reader: a number in it is too long, or a value lies too deep. Either can be seen from
the characters of the text. -/
def Overtaxes (dialect : Json.Dialect) (text : String) (f : Fault) : Prop :=
  (∃ n, Json.LongRun n text.toList ∧ Json.read dialect text = .error (.number (.tooLong n)) ∧
      f = .numeral (.tooLong n)) ∨
    ∃ container, dialect.room < text.toList.countP Json.isOpening ∧
      Json.read dialect text = .error (.tooDeep container) ∧
      f = .tooDeep container

theorem overtaxes_of_number {text : String} {e : Numeral.Error} (h : Json.read dialect text = .error (.number e)) :
    Overtaxes dialect text (.numeral e) := by
  obtain ⟨n, rfl, hrun⟩ := Json.longRun_of_read h
  exact .inl ⟨n, hrun, h, rfl⟩

theorem overtaxes_of_tooDeep {text : String} {container : Json.Container}
    (h : Json.read dialect text = .error (.tooDeep container)) : Overtaxes dialect text (.tooDeep container) :=
  .inr ⟨container, Json.countP_isOpening_of_read h, h, rfl⟩

theorem table_error {text name : String} {f : Fault} (h : table dialect cwd text name = .error f) :
    (∃ reason, f = .overlay name reason) ∨ Overtaxes dialect text f := by
  cases hr : Json.read dialect text with
  | ok v =>
      have hlegible : Legible dialect text := ⟨by simp [hr], by simp [hr]⟩
      exact .inl (table_of_legible hlegible h)
  | error e =>
      rw [table, hr] at h
      cases e with
      | number e =>
          cases h
          exact .inr (overtaxes_of_number hr)
      | tooDeep container =>
          cases h
          exact .inr (overtaxes_of_tooDeep hr)
      | malformed reason line column position => exact .inl ⟨_, (Except.error.inj h).symm⟩

theorem tolerate_table_eq_error {text name : String} {f : Fault} :
    tolerate (table dialect cwd text name) = .error f ↔ Overtaxes dialect text f := by
  constructor
  · intro h
    obtain ⟨ht, hne⟩ := tolerate_eq_error.mp h
    exact (table_error ht).resolve_left fun ⟨reason, hf⟩ => hne ⟨name, reason, hf⟩
  · rintro (⟨n, -, hr, rfl⟩ | ⟨container, -, hr, rfl⟩) <;> rw [table, hr] <;> rfl

/-- Apart from the document as such, what ends strict loading is that it cannot be opened at all, or asks too much. -/
theorem ofReading_eq_error {r : Except Fault Reading} {f : Fault} (hf : ¬ Tolerable f) :
    ofReading dialect cwd p r = .error f ↔
      r = .error f ∨ ∃ text, r = .ok (.text text) ∧ Overtaxes dialect text f := by
  cases r with
  | error g => simp [ofReading]
  | ok reading =>
      cases reading with
      | text text =>
          have hread : ofReading dialect cwd p (.ok (.text text)) = table dialect cwd text p.text := rfl
          have htable : tolerate (table dialect cwd text p.text) = .error f ↔ Overtaxes dialect text f :=
            tolerate_table_eq_error
          simpa [hread, tolerate_eq_error, hf] using htable
      | _ =>
          refine ⟨fun h => absurd ?_ hf, by simp⟩
          exact ⟨_, _, (Except.error.inj h).symm⟩

theorem ofReading_eq_ok {r : Except Fault Reading} {T : Substitution} (h : ofReading dialect cwd p r = .ok T) :
    ∃ text, r = .ok (.text text) := by
  cases r with
  | error f => cases h
  | ok reading =>
      cases reading with
      | text text => exact ⟨text, rfl⟩
      | _ => cases h

/-- Tolerant loading finds a table exactly if strict loading does and the document is a file. It goes on without one
if the document is no file, whatever strict loading makes of it, and if it is one that strict loading cannot use. It
is ended by what ends the search or the question whether the document is a file, and by what ends strict loading other
than as a document that cannot be used: that it cannot be opened at all, or asks too much. If all that can be read are
files, both find the same tables. -/
theorem load_outcome_iff (h : machine.Keeps (· = w)) (cwd root : String) (s : Settings) :
    let tolerant := (load machine cwd root s).outcome w
    let strict := (loadStrict machine cwd root s).outcome w
    let place := (path machine root s).outcome w
    let isFile := fun p : Tidy => ((machine.isFile p.text).run w).1
    let reading := fun p : Tidy => ((machine.read p.text).run w).1
    (∀ T, tolerant = .ok (some T) ↔ strict = .ok T ∧ ∃ p, place = .ok p ∧ isFile p = .ok true) ∧
    (tolerant = .ok none ↔ ∃ p, place = .ok p ∧
      (isFile p = .ok false ∨ isFile p = .ok true ∧ ∃ f, strict = .error f ∧ Tolerable f)) ∧
    (∀ f, tolerant = .error f ↔ place = .error f ∨ ∃ p, place = .ok p ∧
      (isFile p = .error f ∨ isFile p = .ok true ∧ strict = .error f ∧ ¬ Tolerable f)) ∧
    (∀ f, ¬ Tolerable f → (strict = .error f ↔ place = .error f ∨ ∃ p, place = .ok p ∧
      (reading p = .error f ∨ ∃ text, reading p = .ok (.text text) ∧ Overtaxes machine.json text f))) ∧
    ((∀ p text, reading p = .ok (.text text) → isFile p = .ok true) →
      ∀ T, tolerant = .ok (some T) ↔ strict = .ok T) := by
  intro tolerant strict place isFile reading
  have htolerant : tolerant = place >>= fun p => isFile p >>= fun b => if b then tolerate strict else .ok none :=
    (load_gives h cwd root s).outcome_eq
  have hstrict : strict = place >>= fun p => ofReading machine.json cwd p (reading p) :=
    (loadStrict_gives h cwd root s).outcome_eq
  clear_value tolerant strict place isFile reading
  cases place with
  | error f =>
      rw [error_bind] at htolerant hstrict
      subst htolerant hstrict
      simp
  | ok p =>
      rw [ok_bind] at htolerant hstrict
      have hfault (f : Fault) (hf : ¬ Tolerable f) : strict = .error f ↔
          reading p = .error f ∨ ∃ text, reading p = .ok (.text text) ∧ Overtaxes machine.json text f := by
        rw [hstrict, ofReading_eq_error hf]
      have hread (T : Substitution) (hT : strict = .ok T) : ∃ text, reading p = .ok (.text text) :=
        ofReading_eq_ok (hstrict ▸ hT)
      cases hi : isFile p with
      | error g =>
          rw [hi, error_bind] at htolerant
          subst htolerant
          refine ⟨by simp [hi], by simp [hi], by simp [hi], by simpa using hfault, fun hall T => ?_⟩
          refine ⟨nofun, fun hT => ?_⟩
          obtain ⟨text, htext⟩ := hread T hT
          cases hi.symm.trans (hall p text htext)
      | ok b =>
          rw [hi, ok_bind] at htolerant
          cases b with
          | false =>
              subst htolerant
              refine ⟨by simp [hi], by simp [hi], by simp [hi], by simpa using hfault, fun hall T => ?_⟩
              refine ⟨nofun, fun hT => ?_⟩
              obtain ⟨text, htext⟩ := hread T hT
              cases hi.symm.trans (hall p text htext)
          | true =>
              rw [if_pos rfl] at htolerant
              subst htolerant
              refine ⟨?_, ?_, ?_, by simpa using hfault, fun _ T => tolerate_eq_some⟩
              · simp [hi, tolerate_eq_some]
              · simp [hi, tolerate_eq_none]
              · simp [hi, tolerate_eq_error]

/-! ## A document that is no file -/

/-- A module whose document can be read, as that of a pipe can, but is no file. -/
def piped (document : Json) : Snapshot where
  read _ := .ok (.text (document.write Json.oneLine))
  isFile path := .ok (path = "/w/go.mod")
  folders _ := .ok []
  json := .usual

/-- Strict loading finds a table there and tolerant loading none. -/
theorem load_outcome_iff_of_pipe :
    let document := Json.obj [("Replace", .obj [("/w/a.go", .str "/w/b.go")])]
    let machine : Machine (StateM Unit) := (piped document).machine
    (load machine "/w" "/w" {}).outcome () = .ok none ∧
      ∃ T, (loadStrict machine "/w" "/w" {}).outcome () = .ok T := by
  intro document machine
  have hkeeps : machine.Keeps (· = ()) := Snapshot.machine_keeps _ _
  obtain ⟨-, hnone, -, -, -⟩ := load_outcome_iff hkeeps "/w" "/w" {}
  have hplace : (path machine "/w" {}).outcome () =
      .ok (((Tidy.ofString "/w").join ".inco_cache").join "overlay.json") := rfl
  have hread : Json.read .usual (document.write Json.oneLine) = .ok document :=
    Json.read_write Json.oneLine_spaced (by simp [document, Json.Exact, Json.ExactMembers]) (by decide)
  refine ⟨hnone.mpr ⟨_, hplace, .inl rfl⟩, ?_⟩
  rw [(loadStrict_gives hkeeps "/w" "/w" {}).outcome_eq, hplace, ok_bind]
  have htable : ∃ T, table .usual "/w" (document.write Json.oneLine) "/w/.inco_cache/overlay.json" = .ok T := by
    rw [table, hread]
    exact ⟨_, rfl⟩
  exact htable

/-! ## A document that is one long number -/

def moduleWith (document : Workspace.Node) : Workspace where
  cwd := ["tmp", "ws"]
  nodes := [(["tmp"], .folder), (["tmp", "ws"], .folder), (["tmp", "ws", "go.mod"], .file ⟨#[]⟩),
    (["tmp", "ws", ".inco_cache"], .folder), (["tmp", "ws", ".inco_cache", "overlay.json"], document)]

def nines (n : Nat) : ByteArray := ⟨(List.replicate n 0x39).toArray⟩

theorem decode_nines (n : Nat) : Workspace.decode (nines n) = String.ofList (List.replicate n '9') := by
  have hascii : ∀ b ∈ List.replicate n (0x39 : UInt8), b.toNat < 0x80 := by
    intro b hb
    rw [List.eq_of_mem_replicate hb]
    decide
  have hreturn : '\r' ∉ List.replicate n '9' := fun h => by cases List.eq_of_mem_replicate h
  rw [Workspace.decode, nines, Text.Utf8.decode_ascii hascii, List.map_replicate]
  exact congrArg String.ofList (Text.unifyNewlines_of_notMem hreturn)

theorem read_nines {n : Nat} (h : Numeral.limit < n) :
    Json.read dialect (String.ofList (List.replicate n '9')) = .error (.number (.tooLong n)) := by
  have hdigits : Text.Run Json.isAsciiDigit (List.replicate n '9') := by
    refine ⟨fun hnil => ?_, fun c hc => ?_⟩
    · rw [List.replicate_eq_nil_iff] at hnil
      omega
    · rw [List.eq_of_mem_replicate hc]
      rfl
  have hzero : (List.replicate n '9').head? ≠ some '0' := by
    intro hhead
    cases List.eq_of_mem_replicate (List.mem_of_head? hhead)
  have hread : Json.read dialect _ = _ := Json.read_of_tooLong hdigits hzero (by rw [List.length_replicate]; omega)
  rwa [List.length_replicate] at hread

/-- A number that is too long makes no table, and it does not count as a document that cannot be used either: it ends
tolerant loading. -/
theorem load_nines {n : Nat} (h : Numeral.limit < n) :
    (load (Machine.ofState dialect id) "/tmp/ws" "/tmp/ws" {}).outcome (moduleWith (.file (nines n))) =
      .error (.numeral (.tooLong n)) := by
  have hkeeps : (Machine.ofState dialect id).Keeps (· = moduleWith (.file (nines n))) :=
    ⟨fun _ _ h => h, fun _ _ h => h, fun _ _ h => h⟩
  have hplace : (path (Machine.ofState dialect id) "/tmp/ws" {}).outcome (moduleWith (.file (nines n))) =
      .ok (((Tidy.ofString "/tmp/ws").join ".inco_cache").join "overlay.json") := rfl
  have hread : ((Machine.ofState dialect id).read
      (((Tidy.ofString "/tmp/ws").join ".inco_cache").join "overlay.json").text).run (moduleWith (.file (nines n))) =
        (.ok (.text (Workspace.decode (nines n))), moduleWith (.file (nines n))) := rfl
  have hover : Overtaxes dialect (Workspace.decode (nines n)) (.numeral (.tooLong n)) := by
    rw [decode_nines]
    exact overtaxes_of_number (read_nines h)
  rw [(load_gives hkeeps _ _ _).outcome_eq, (loadStrict_gives hkeeps _ _ _).outcome_eq, hplace, ok_bind, ok_bind, hread]
  exact tolerate_table_eq_error.mpr hover

theorem load_long_number :
    (load (Machine.ofState .usual id) "/tmp/ws" "/tmp/ws" {}).outcome (moduleWith (.file (nines 4301))) =
      .error (.numeral (.tooLong 4301)) := load_nines (by decide)

end Overlay

end Backmap
