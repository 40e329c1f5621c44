import Backmap.Proofs.Batch.Run

/-!
# Batches that remember nothing

The caches of a batch, and whatever an earlier batch left in the session, cannot be told from the outcome. It is
that of a batch which starts from nothing and reads the files anew for every single record.
-/

namespace Backmap

variable {σ α β : Type}

/-! ## Lists of results -/

theorem mapM_eq_ok {g : α → Except Fault β} {as : List α} {bs : List β} :
    as.mapM g = .ok bs ↔ List.Forall₂ (fun a b => g a = .ok b) as bs := by
  induction as generalizing bs with
  | nil =>
      constructor
      · rintro ⟨⟩
        exact .nil
      · rintro ⟨⟩
        rfl
  | cons a as ih =>
      rw [List.mapM_cons, bind_eq_ok]
      constructor
      · rintro ⟨b, hb, h⟩
        obtain ⟨bs', hbs, h⟩ := bind_eq_ok.mp h
        cases h
        exact .cons hb (ih.mp hbs)
      · rintro (_ | ⟨hb, hbs⟩)
        exact ⟨_, hb, bind_eq_ok.mpr ⟨_, ih.mpr hbs, rfl⟩⟩

theorem mapM_eq_error {g : α → Except Fault β} {done rest : List α} {a : α} {bs : List β} {e : Fault}
    (hdone : List.Forall₂ (fun a b => g a = .ok b) done bs) (ha : g a = .error e) :
    (done ++ a :: rest).mapM g = .error e := by
  rw [List.mapM_append, mapM_eq_ok.mpr hdone, ok_bind, List.mapM_cons, ha]
  rfl

theorem exists_of_mapM_eq_ok {g : α → Except Fault β} {as : List α} {bs : List β} (h : as.mapM g = .ok bs) :
    ∀ a ∈ as, ∃ b ∈ bs, g a = .ok b := by
  rw [mapM_eq_ok] at h
  induction h with
  | nil => exact fun a ha => by cases ha
  | cons hb hbs ih =>
      intro a ha
      rcases List.mem_cons.mp ha with rfl | ha
      · exact ⟨_, List.mem_cons_self, hb⟩
      · obtain ⟨b, hmem, hb⟩ := ih a ha
        exact ⟨b, List.mem_cons_of_mem _ hmem, hb⟩

theorem mem_of_mapM_eq_ok {g : α → Except Fault β} {as : List α} {bs : List β} (h : as.mapM g = .ok bs) {b : β} :
    b ∈ bs ↔ ∃ a ∈ as, g a = .ok b := by
  rw [mapM_eq_ok] at h
  induction h with
  | nil => simp
  | cons hb hbs ih =>
      rw [List.mem_cons, ih, List.exists_mem_cons_iff, hb, Except.ok.injEq, eq_comm]

theorem exists_mapM_eq_ok {g : α → Except Fault β} {as : List α} :
    (∃ bs, as.mapM g = .ok bs) ↔ ∀ a ∈ as, ∃ b, g a = .ok b := by
  constructor
  · rintro ⟨bs, h⟩ a ha
    obtain ⟨b, -, hb⟩ := exists_of_mapM_eq_ok h a ha
    exact ⟨b, hb⟩
  · intro h
    induction as with
    | nil => exact ⟨[], rfl⟩
    | cons a as ih =>
        obtain ⟨⟨b, hb⟩, hbs⟩ := List.forall_mem_cons.mp h
        obtain ⟨bs, hbs⟩ := ih hbs
        exact ⟨b :: bs, mapM_eq_ok.mpr (.cons hb (mapM_eq_ok.mp hbs))⟩

namespace Batch

/-- What a batch comes to if every record is judged by itself, with readings made for it alone. -/
def independent (tokens : List String) (answer : String → Except Fault Reading) (frame : Except Fault Frame)
    (records : Except Fault (List Record)) : Except Fault (Groups × Counts) := do
  let f ← frame
  let rs ← records
  let vs ← rs.mapM (f.judge tokens answer answer)
  .ok (report f.workspace vs)

theorem judged_iff {answer : String → Except Fault Reading} {f : Frame} {tokens : List String} {r : Record}
    {x : Except Fault Verdict} :
    Judged (fun path a => a = answer path) f tokens r x ↔ f.judge tokens answer answer r = x := by
  constructor
  · rintro ⟨shadows, sources, hs, ht, h⟩
    rw [← h, funext hs, funext ht]
  · exact fun h => ⟨answer, answer, fun _ => rfl, fun _ => rfl, h⟩

/-- With a reader that has one answer for a path, only one outcome is possible. -/
theorem Outcome.eq_independent {answer : String → Except Fault Reading} {tokens : List String}
    {frame : Except Fault Frame} {records : Except Fault (List Record)} {x : Except Fault Groups} {c : Counts}
    (h : Outcome (fun path a => a = answer path) tokens frame records x c) :
    x.map (·, c) = independent tokens answer frame records := by
  cases x with
  | ok g =>
      obtain ⟨f, rs, vs, rfl, rfl, hvs, hs⟩ := h
      simp only [judged_iff] at hvs
      rw [independent, ok_bind, ok_bind, mapM_eq_ok.mpr hvs, ok_bind, ← hs]
      rfl
  | error e =>
      rcases h with rfl | ⟨f, rfl, rfl | ⟨done, r, rest, vs, rfl, hvs, he⟩⟩
      · rfl
      · rfl
      · simp only [judged_iff] at hvs he
        rw [independent, ok_bind, ok_bind, mapM_eq_error hvs he]
        rfl

end Batch

/-! ## Sessions -/

/-- With a reader that has one answer for a path, what a session held before makes no difference. -/
theorem Session.run_eq_independent {I : σ → Prop} {answer : String → Except Fault Reading} (session : Session)
    (cwd : String) (machine : Machine (StateM σ)) (read : Reader (StateM σ)) (q : Batch.Request) (w : σ)
    (hmachine : machine.Keeps I) (hread : read.Answers I fun path a => a = answer path) (hw : I w) :
    (((session.run cwd machine read q).run w).1.result.map fun g =>
        (g, ((session.run cwd machine read q).run w).1.session.counts)) =
      Batch.independent session.cache.tokens answer
        (((Batch.frame session.settings cwd machine q).run.run #[]).run w).1.1
        (Record.parsed q.output session.settings.noisePatterns) :=
  (session.run_spec cwd q hmachine hread hw).eq_independent

/-- A batch reports on the verdicts, if there is one for each record. -/
theorem Session.run_of_verdicts {I : σ → Prop} {answer : String → Except Fault Reading} {session : Session}
    {cwd : String} {machine : Machine (StateM σ)} {read : Reader (StateM σ)} {q : Batch.Request} {w : σ}
    {f : Batch.Frame} {rs : List Record} {vs : List Batch.Verdict} (hmachine : machine.Keeps I)
    (hread : read.Answers I fun path a => a = answer path) (hw : I w)
    (hf : (((Batch.frame session.settings cwd machine q).run.run #[]).run w).1.1 = .ok f)
    (hrs : Record.parsed q.output session.settings.noisePatterns = .ok rs)
    (hvs : rs.mapM (f.judge session.cache.tokens answer answer) = .ok vs) :
    ((session.run cwd machine read q).run w).1.result = .ok (Batch.report f.workspace vs).1 ∧
      ((session.run cwd machine read q).run w).1.session.counts = (Batch.report f.workspace vs).2 := by
  have h := session.run_eq_independent cwd machine read q w hmachine hread hw
  rw [hf, hrs, Batch.independent, ok_bind, ok_bind, hvs, ok_bind] at h
  obtain ⟨g, hg, he⟩ := map_eq_ok.mp h
  rw [← he]
  exact ⟨hg, rfl⟩

/-- The states that operations on files can lead to from `w`. -/
inductive Machine.Reached (machine : Machine (StateM σ)) (read : Reader (StateM σ)) (w : σ) : σ → Prop
  | start : Reached machine read w w
  | reader {w' : σ} (path : String) : Reached machine read w w' → Reached machine read w ((read path).run w').2
  | read {w' : σ} (path : String) : Reached machine read w w' → Reached machine read w ((machine.read path).run w').2
  | isFile {w' : σ} (path : String) :
      Reached machine read w w' → Reached machine read w ((machine.isFile path).run w').2
  | folders {w' : σ} (path : String) :
      Reached machine read w w' → Reached machine read w ((machine.folders path).run w').2

theorem Machine.Reached.keeps (machine : Machine (StateM σ)) (read : Reader (StateM σ)) (w : σ) :
    machine.Keeps (machine.Reached read w) where
  read := fun path _ h => h.read path
  isFile := fun path _ h => h.isFile path
  folders := fun path _ h => h.folders path

/-- What a batch comes to that starts in `w` with nothing remembered, where `answer` is what the files hold. -/
def Batch.fresh (s : Settings) (cwd : String) (machine : Machine (StateM σ)) (answer : String → Reading)
    (q : Batch.Request) (w : σ) : Except Fault (Groups × Counts) :=
  independent s.directiveTokens (fun path => .ok (answer path)) (((frame s cwd machine q).run.run #[]).run w).1.1
    (Record.parsed q.output s.noisePatterns)

/-- As long as the files stay as they are, a batch gives the groups and the counts of one that remembers nothing,
neither from its own records nor from the batches before it. -/
theorem Session.run_eq_fresh (session : Session) (cwd : String) (machine : Machine (StateM σ))
    (read : Reader (StateM σ)) (answer : String → Reading) (q : Batch.Request) (w : σ)
    (hown : session.cache.tokens = session.settings.directiveTokens)
    (hread : ∀ w', machine.Reached read w w' → ∀ path, ((read path).run w').1 = .ok (answer path)) :
    (((session.run cwd machine read q).run w).1.result.map fun g =>
        (g, ((session.run cwd machine read q).run w).1.session.counts)) =
      Batch.fresh session.settings cwd machine answer q w := by
  have hanswers : read.Answers (machine.Reached read w) fun path a => a = .ok (answer path) :=
    ⟨fun path w' h => hread w' h path, fun path w' h => h.reader path⟩
  rw [Batch.fresh, ← hown]
  exact session.run_eq_independent cwd machine read q w (Machine.Reached.keeps machine read w) hanswers .start

/-- Every path is a file with one and the same text. -/
def Machine.uniform (text : String) : Machine (StateM Unit) where
  read _ := pure (.ok (.text text))
  isFile _ := pure (.ok true)
  folders _ := pure (.ok [])
  json := .usual

theorem Machine.uniform_keeps (text : String) : (uniform text).Keeps fun _ => True :=
  ⟨fun _ _ _ => trivial, fun _ _ _ => trivial, fun _ _ _ => trivial⟩

theorem Machine.uniform_answers (text : String) :
    Reader.Answers (uniform text).read (fun _ => True) fun _ a => a = .ok (.text text) :=
  ⟨fun _ _ _ => rfl, fun _ _ _ => trivial⟩

/-- A session in which an older text of the source was indexed, and other batches were counted. -/
theorem Session.run_eq_fresh_stale :
    let machine := Machine.uniform "x\n// @inco: y\nz\n"
    let session : Session :=
      { settings := {}
        cache := { tokens := ["@inco:", "@if:"], known := [("/w/a.go", ⟨[0]⟩)], failures := [("/w/b.go", .silent)] }
        counts := { parsed := 4, snapped := 2 } }
    let q : Batch.Request := { output := "a.go:3: oops\nb.go:1: no", root := "/w", compileRoot := some "/w" }
    session.cache.tokens = session.settings.directiveTokens ∧
      (∀ w', machine.Reached machine.read () w' → ∀ path,
        ((machine.read path).run w').1 = .ok (.text "x\n// @inco: y\nz\n")) ∧
      (((session.run "/w" machine machine.read q).run ()).1.result.map fun g =>
          (g, ((session.run "/w" machine machine.read q).run ()).1.session.counts)) =
        Batch.fresh session.settings "/w" machine (fun _ => .text "x\n// @inco: y\nz\n") q () :=
  ⟨rfl, fun _ _ _ => rfl, run_eq_fresh _ _ _ _ _ _ _ rfl fun _ _ _ => rfl⟩

end Backmap
