import Backmap.Proofs.Anchor.Index
import Backmap.Proofs.Batch.Grouping
import Backmap.Proofs.Ends

/-!
# Verdicts

What a batch is to compute, told without its caches and without its order of work. A verdict says what one
record comes to by itself, from a reading of its shadow and one of its source; a report says what a list of
verdicts comes to.
-/

namespace Backmap.Batch

/-- How the line of a diagnostic was found. -/
inductive Move where
  | stayed
  /-- It was moved onto a directive. -/
  | snapped
  /-- A marker or a text was missing. -/
  | fallback
  deriving DecidableEq, Repr

inductive Verdict where
  | unattributed
  | placed (move : Move) (d : Diagnostic)

namespace Verdict

def diagnostic? : Verdict → Option Diagnostic
  | unattributed => none
  | placed _ d => some d

def move : Verdict → Move
  | unattributed => .stayed
  | placed m _ => m

@[simp] theorem diagnostic?_unattributed : unattributed.diagnostic? = none := rfl

@[simp] theorem diagnostic?_placed (m : Move) (d : Diagnostic) : (placed m d).diagnostic? = some d := rfl

@[simp] theorem move_unattributed : unattributed.move = .stayed := rfl

@[simp] theorem move_placed (m : Move) (d : Diagnostic) : (placed m d).move = m := rfl

end Verdict

/-! ## The verdict on a record -/

namespace Frame

/-- Where a diagnostic in a source goes, given a reading of the source. -/
def settle (f : Frame) (tokens : List String) (reading : Reading) (line : Int) : Move × Int :=
  match reading.text? with
  | none => (.fallback, line)
  | some text =>
    match (AnchorIndex.build text tokens).snap? line f.settings.maxSnapDistance with
    | none => (.stayed, line)
    | some anchor => (if anchor ≠ line then .snapped else .stayed, anchor)

def markersIn (f : Frame) (reading : Reading) : Except Fault (List Marker) :=
  match reading.text? with
  | some text => Marker.findAll text f.settings.markerToken
  | none => .ok []

def judgeSource (f : Frame) (tokens : List String) (r : Record) (path : String) (line : Int)
    (reading : Reading) : Verdict :=
  .placed (f.settle tokens reading line).1 (f.diagnostic r path (f.settle tokens reading line).2)

def judgeShadow (f : Frame) (tokens : List String) (r : Record) (source : String) (line : Int)
    (sources : String → Except Fault Reading) (markers : List Marker) : Except Fault Verdict :=
  match Marker.resolve? markers line with
  | none => .ok (.placed .fallback (f.diagnostic r source line))
  | some moved => (sources source).map (f.judgeSource tokens r source moved)

/-- The verdict on a record, which may need a reading of a shadow and one of a source. -/
def judge (f : Frame) (tokens : List String) (shadows sources : String → Except Fault Reading) (r : Record) :
    Except Fault Verdict :=
  let line : Int := (r.line - 1 : Nat)
  match f.origin r with
  | .foreign _ => .ok .unattributed
  | .source path => (sources path).map (f.judgeSource tokens r path line)
  | .shadow path source => do
    let markers ← f.markersIn (← shadows path)
    f.judgeShadow tokens r source line sources markers

theorem settle_singleton (f : Frame) {tokens : List String} {text : String} {anchor line : Int}
    (hbuild : AnchorIndex.build text tokens = ⟨[anchor]⟩) (hle : anchor ≤ line)
    (hreach : line - anchor ≤ f.settings.maxSnapDistance) :
    f.settle tokens (.text text) line = (if anchor ≠ line then .snapped else .stayed, anchor) := by
  simp only [settle, Reading.text?, hbuild, AnchorIndex.snap?_singleton hle hreach]

theorem judge_singleton {f : Frame} {tokens : List String} {shadows sources : String → Except Fault Reading}
    {r : Record} {path text : String} {anchor : Int} (horigin : f.origin r = .source path)
    (hread : sources path = .ok (.text text))
    (hbuild : AnchorIndex.build text tokens = ⟨[anchor]⟩) (hle : anchor ≤ (r.line - 1 : Nat))
    (hreach : (r.line - 1 : Nat) - anchor ≤ f.settings.maxSnapDistance) :
    f.judge tokens shadows sources r =
      .ok (.placed (if anchor ≠ (r.line - 1 : Nat) then .snapped else .stayed) (f.diagnostic r path anchor)) := by
  simp only [judge, horigin, hread, Except.map, judgeSource, f.settle_singleton hbuild hle hreach]

def file? (f : Frame) (r : Record) : Option String :=
  match f.origin r with
  | .source path => some path
  | .shadow _ source => some source
  | .foreign _ => none

def paths (f : Frame) (r : Record) : List String :=
  match f.origin r with
  | .source path => [path]
  | .shadow path source => [path, source]
  | .foreign _ => []

/-- A verdict depends on the settings, on the origin, the line and the message of the record, and on what is read at
its paths. -/
theorem judge_congr {f f' : Frame} {tokens : List String}
    {shadows shadows' sources sources' : String → Except Fault Reading} {r r' : Record}
    (hs : f.settings = f'.settings) (ho : f.origin r = f'.origin r') (hline : r.line - 1 = r'.line - 1)
    (hmessage : r.message = r'.message) (hshadows : ∀ path ∈ f.paths r, shadows path = shadows' path)
    (hsources : ∀ path ∈ f.paths r, sources path = sources' path) :
    f.judge tokens shadows sources r = f'.judge tokens shadows' sources' r' := by
  unfold judge
  rw [← ho, hline]
  unfold paths at hshadows hsources
  have hdiagnostic : f.diagnostic r = f'.diagnostic r' := by
    unfold diagnostic
    rw [hs, hmessage]
  have hsource : f.judgeSource tokens r = f'.judgeSource tokens r' := by
    unfold judgeSource settle
    rw [hs, hdiagnostic]
  cases horigin : f.origin r with
  | foreign path => rfl
  | source path =>
      simp only [horigin, List.mem_singleton, forall_eq] at hsources
      simp only [hsources, hsource]
  | shadow path source =>
      simp only [horigin, List.forall_mem_cons, List.not_mem_nil, false_implies, implies_true, and_true] at hshadows
      simp only [horigin, List.forall_mem_cons, List.not_mem_nil, false_implies, implies_true, and_true] at hsources
      have hmarkers : f.markersIn = f'.markersIn := by
        unfold markersIn
        rw [hs]
      have hshadow : ∀ line, f.judgeShadow tokens r source line sources =
          f'.judgeShadow tokens r' source line sources' := by
        intro line
        unfold judgeShadow
        rw [hdiagnostic, hsources.2, hsource]
      simp only [hshadows.1, hmarkers, hshadow]

variable {f : Frame} {tokens : List String} {shadows sources : String → Except Fault Reading} {r : Record}
  {v : Verdict}

theorem settle_nonneg {reading : Reading} {line : Int} (h : 0 ≤ line) : 0 ≤ (f.settle tokens reading line).2 := by
  unfold settle
  split
  · exact h
  · split
    · exact h
    · next hs =>
      rcases AnchorIndex.eq_or_mem_of_snap? hs with rfl | hm
      · exact h
      · exact AnchorIndex.nonneg_of_mem_build hm

/-- A verdict on a record finds its diagnostic at some line of the file that the record is attributed to, or nothing if
there is no such file. -/
theorem judge_cases (h : f.judge tokens shadows sources r = .ok v) :
    (f.file? r = none ∧ v = .unattributed) ∨
      ∃ file move line, f.file? r = some file ∧ v = .placed move (f.diagnostic r file line) ∧ 0 ≤ line := by
  have hline : (0 : Int) ≤ (r.line - 1 : Nat) := Int.natCast_nonneg _
  unfold judge at h
  unfold file?
  cases ho : f.origin r with
  | foreign path =>
      simp only [ho] at h
      cases h
      exact .inl ⟨rfl, rfl⟩
  | source path =>
      simp only [ho] at h
      obtain ⟨reading, -, rfl⟩ := map_eq_ok.mp h
      exact .inr ⟨path, _, _, rfl, rfl, settle_nonneg hline⟩
  | shadow path source =>
      simp only [ho] at h
      obtain ⟨reading, -, h⟩ := bind_eq_ok.mp h
      obtain ⟨markers, -, h⟩ := bind_eq_ok.mp h
      unfold judgeShadow at h
      split at h
      · cases h
        exact .inr ⟨source, _, _, rfl, rfl, hline⟩
      · next hm =>
        obtain ⟨reading, -, rfl⟩ := map_eq_ok.mp h
        obtain ⟨m, -, rfl⟩ := Option.map_eq_some_iff.mp hm
        exact .inr ⟨source, _, _, rfl, rfl, settle_nonneg (Int.le_max_left _ _)⟩

/-- Verdicts differ from each other in lines only: file and message are settled by the record. -/
theorem file_of_judge (h : f.judge tokens shadows sources r = .ok v) :
    v.diagnostic?.map (fun d => (d.file, d.message)) = (f.file? r).map (·, r.message) := by
  obtain ⟨hfile, rfl⟩ | ⟨file, move, line, hfile, rfl, -⟩ := judge_cases h
  · rw [hfile]
    rfl
  · rw [hfile]
    rfl

theorem line_nonneg_of_judge (h : f.judge tokens shadows sources r = .ok v) :
    ∀ d ∈ v.diagnostic?, 0 ≤ d.line := by
  obtain ⟨-, rfl⟩ | ⟨file, move, line, -, rfl, hline⟩ := judge_cases h
  · rintro d ⟨⟩
  · rintro d ⟨⟩
    exact hline

/-- In one frame, diagnostics with the same key are the same. -/
theorem eq_of_key {r' : Record} {shadows' sources' : String → Except Fault Reading} {v' : Verdict} {d e : Diagnostic}
    (h : f.judge tokens shadows sources r = .ok v) (h' : f.judge tokens shadows' sources' r' = .ok v')
    (hd : d ∈ v.diagnostic?) (he : e ∈ v'.diagnostic?) (hkey : d.key = e.key) : d = e := by
  obtain ⟨-, rfl⟩ | ⟨file, move, line, -, rfl, -⟩ := judge_cases h
  · cases hd
  obtain ⟨-, rfl⟩ | ⟨file', move', line', -, rfl, -⟩ := judge_cases h'
  · cases he
  cases hd
  cases he
  have hfields : file = file' ∧ line = line' ∧ r.message = r'.message := by
    simpa [Diagnostic.key, diagnostic] using hkey
  rw [diagnostic, diagnostic, hfields.1, hfields.2.1, hfields.2.2]

end Frame

/-! ## The report on verdicts -/

/-- The diagnostics of verdicts. -/
def placed (vs : List Verdict) : List Diagnostic := vs.filterMap Verdict.diagnostic?

/-- Those that lie in the workspace. -/
def inside (workspace : String) (vs : List Verdict) : List Diagnostic :=
  (placed vs).filter (Path.isWithin ·.file workspace)

/-- Those of them that say something new. -/
def kept (workspace : String) (vs : List Verdict) : List Diagnostic :=
  firsts Diagnostic.key (inside workspace vs)

def tally (workspace : String) (vs : List Verdict) : Counts where
  parsed := vs.length
  resolved := (kept workspace vs).length
  snapped := vs.countP (·.move = .snapped)
  fallbacks := vs.countP (·.move = .fallback)
  duplicates := (inside workspace vs).length - (kept workspace vs).length
  unattributed := vs.countP (·.diagnostic?.isNone)
  outside := (placed vs).countP (!Path.isWithin ·.file workspace)

def report (workspace : String) (vs : List Verdict) : Groups × Counts :=
  (.ofList (kept workspace vs), tally workspace vs)

/-! ## One verdict after the other -/

def Move.count : Move → Counts → Counts
  | stayed, c => c
  | snapped, c => { c with snapped := c.snapped + 1 }
  | fallback, c => { c with fallbacks := c.fallbacks + 1 }

/-- Groups and counts with one more verdict in them. -/
def enter (workspace : String) (s : Groups × Counts) : Verdict → Groups × Counts
  | .unattributed => (s.1, { s.2 with unattributed := s.2.unattributed + 1 })
  | .placed move d =>
    let c := move.count s.2
    if !Path.isWithin d.file workspace then (s.1, { c with outside := c.outside + 1 })
    else if s.1.has d then (s.1, { c with duplicates := c.duplicates + 1 })
    else (s.1.add d, { c with resolved := c.resolved + 1 })

variable {workspace : String} {vs : List Verdict} {v : Verdict} {move : Move} {d : Diagnostic}
  {s : Groups × Counts}

theorem enter_outside (h : Path.isWithin d.file workspace = false) :
    enter workspace s (.placed move d) =
      (s.1, { move.count s.2 with outside := (move.count s.2).outside + 1 }) := by
  simp only [enter, h, Bool.not_false, if_true]

theorem enter_repeated (h : Path.isWithin d.file workspace = true) (hd : s.1.has d = true) :
    enter workspace s (.placed move d) =
      (s.1, { move.count s.2 with duplicates := (move.count s.2).duplicates + 1 }) := by
  simp only [enter, h, hd, Bool.not_true, Bool.false_eq_true, if_false, if_true]

theorem enter_new (h : Path.isWithin d.file workspace = true) (hd : s.1.has d = false) :
    enter workspace s (.placed move d) =
      (s.1.add d, { move.count s.2 with resolved := (move.count s.2).resolved + 1 }) := by
  simp only [enter, h, hd, Bool.not_true, Bool.false_eq_true, if_false]

theorem placed_concat : placed (vs ++ [v]) = placed vs ++ v.diagnostic?.toList := by
  cases v <;> simp [placed]

theorem inside_unattributed : inside workspace (vs ++ [.unattributed]) = inside workspace vs := by
  simp [inside, placed_concat]

theorem inside_outside (h : Path.isWithin d.file workspace = false) :
    inside workspace (vs ++ [.placed move d]) = inside workspace vs := by
  simp [inside, placed_concat, h]

theorem inside_within (h : Path.isWithin d.file workspace = true) :
    inside workspace (vs ++ [.placed move d]) = inside workspace vs ++ [d] := by
  simp [inside, placed_concat, h]

theorem length_kept_le (workspace : String) (vs : List Verdict) :
    (kept workspace vs).length ≤ (inside workspace vs).length :=
  length_firsts_le _ _

theorem has_kept : (Groups.ofList (kept workspace vs)).has d = true ↔
    d.key ∈ (inside workspace vs).map Diagnostic.key := by
  rw [Groups.has_ofList, kept, mem_map_firsts]

theorem kept_repeated (h : Path.isWithin d.file workspace = true)
    (hd : d.key ∈ (inside workspace vs).map Diagnostic.key) :
    kept workspace (vs ++ [.placed move d]) = kept workspace vs := by
  rw [kept, inside_within h, firsts_concat, if_pos hd, kept]

theorem kept_new (h : Path.isWithin d.file workspace = true)
    (hd : d.key ∉ (inside workspace vs).map Diagnostic.key) :
    kept workspace (vs ++ [.placed move d]) = kept workspace vs ++ [d] := by
  rw [kept, inside_within h, firsts_concat, if_neg hd, kept]

/-- A report with one more verdict is the report with that verdict entered. -/
theorem enter_report (n : Nat) :
    enter workspace (.ofList (kept workspace vs), { tally workspace vs with parsed := n }) v =
      (.ofList (kept workspace (vs ++ [v])), { tally workspace (vs ++ [v]) with parsed := n }) := by
  cases v with
  | unattributed =>
      simp [enter, tally, kept, inside_unattributed, placed_concat]
  | placed move d =>
      cases hw : Path.isWithin d.file workspace with
      | false =>
          rw [enter_outside hw]
          cases move <;> simp [tally, kept, inside_outside hw, placed_concat, Move.count, hw]
      | true =>
          have hle := length_kept_le workspace vs
          by_cases hd : d.key ∈ (inside workspace vs).map Diagnostic.key
          · rw [enter_repeated hw (has_kept.mpr hd)]
            cases move <;> simp [tally, kept_repeated hw hd, inside_within hw, placed_concat, Move.count, hw] <;> omega
          · rw [enter_new hw (Bool.eq_false_iff.mpr (mt has_kept.mp hd))]
            cases move <;>
              simp [tally, kept_new hw hd, inside_within hw, placed_concat, Move.count, hw, Groups.add_ofList]

theorem foldl_enter (vs : List Verdict) :
    vs.foldl (enter workspace) ([], { parsed := vs.length }) = report workspace vs := by
  have h : ∀ n, vs.foldl (enter workspace) ([], { parsed := n }) =
      (.ofList (kept workspace vs), { tally workspace vs with parsed := n }) := by
    intro n
    induction vs using List.reverseRecOn with
    | nil => rfl
    | append_singleton vs v ih => rw [List.foldl_append, ih, List.foldl_cons, List.foldl_nil, enter_report]
  exact h _

end Backmap.Batch
