import Backmap.Proofs.Anchor.Cache
import Backmap.Proofs.Batch.Verdict
import Backmap.Proofs.Ends

/-!
# The steps of a batch

What a batch remembers of the files it has read is what its reader may answer. As long as that is so, taking a
record enters a verdict on it, and taking many enters one for each.
-/

namespace Backmap.Batch

open BatchM

variable {σ : Type} {I : σ → Prop} {A : String → Except Fault Reading → Prop} {read : Reader (StateM σ)}
  {f : Frame} {tokens : List String} {b : Batch} {log : Log} {w : σ}

/-- Some answers of the reader lead to this verdict on a record. The shadow and the source are read at different
times, so two answers for one path need not agree. -/
def Judged (A : String → Except Fault Reading → Prop) (f : Frame) (tokens : List String) (r : Record)
    (x : Except Fault Verdict) : Prop :=
  ∃ shadows sources : String → Except Fault Reading,
    (∀ path, A path (shadows path)) ∧ (∀ path, A path (sources path)) ∧ f.judge tokens shadows sources r = x

/-- All that a batch remembers is what the reader may answer. -/
structure Faithful (A : String → Except Fault Reading → Prop) (f : Frame) (tokens : List String) (b : Batch) :
    Prop where
  tokens : b.cache.tokens = tokens
  cache : b.cache.Faithful A
  markers : ∀ path found, AnchorCache.lookup? path b.markers = some found →
    ∃ r, A path (.ok r) ∧ f.markersIn r = .ok (found.getD [])

theorem Faithful.counted (h : Faithful A f tokens b) (c : Counts) :
    Faithful A f tokens { b with counts := c } := ⟨h.tokens, h.cache, h.markers⟩

/-! ## Snapping -/

theorem anchors_ends (hread : read.Answers I A) (hw : I w) (h : Faithful A f tokens b) (path : String) :
    (anchors read path).Ends b log w fun x b' w' =>
      I w' ∧ Faithful A f tokens b' ∧ b'.groups = b.groups ∧ b'.counts = b.counts ∧
        match x with
        | .error e => A path (.error e)
        | .ok index => ∃ r, A path (.ok r) ∧ index = r.text?.map (AnchorIndex.build · tokens) := by
  obtain ⟨hw', hx⟩ := AnchorCache.request_spec path hread hw h.cache
  refine ends_get_bind <| ends_lift_bind ?_ ?_
  · intro a log ha
    rw [ha] at hx
    obtain ⟨hc, ht, r, hr, hi⟩ := hx
    rw [h.tokens] at ht hi
    refine ends_modify_bind ?_
    have hb : Faithful A f tokens { b with cache := a.cache } := ⟨ht, hc, h.markers⟩
    cases hindex : a.index with
    | none => exact ⟨hw', hb, rfl, rfl, r, hr, hindex ▸ hi⟩
    | some index =>
        rw [hindex] at hi
        cases hfresh : a.fresh with
        | false => exact ⟨hw', hb, rfl, rfl, r, hr, hi⟩
        | true => exact ⟨hw', hb, rfl, rfl, r, hr, hi⟩
  · intro e he
    rw [he] at hx
    exact ⟨hw', h, rfl, rfl, hx⟩

theorem snap_ends (hread : read.Answers I A) (hw : I w) (h : Faithful A f tokens b) (path : String)
    (line : Int) :
    (snap f read path line).Ends b log w fun x b' w' =>
      I w' ∧ Faithful A f tokens b' ∧ b'.groups = b.groups ∧
        match x with
        | .error e => A path (.error e)
        | .ok line' => ∃ r, A path (.ok r) ∧ line' = (f.settle tokens r line).2 ∧
            b'.counts = (f.settle tokens r line).1.count b.counts := by
  refine Ends.bind (anchors_ends hread hw h path) ?_ ?_
  · rintro index b' log w' ⟨hw', hb', hg, hc, r, hr, rfl⟩
    cases ht : r.text? with
    | none =>
        have hs : f.settle tokens r line = (.fallback, line) := by simp only [Frame.settle, ht]
        refine ends_count_bind <| ends_get_bind <| ends_log_bind fun log => ends_pure.mpr ?_
        exact ⟨hw', hb'.counted _, hg, r, hr, by rw [hs], by rw [hs, ← hc, Move.count]⟩
    | some text =>
        simp only [Option.map_some]
        cases hsnap : (AnchorIndex.build text tokens).snap? line f.settings.maxSnapDistance with
        | none =>
            have hs : f.settle tokens r line = (.stayed, line) := by simp only [Frame.settle, ht, hsnap]
            exact ends_pure.mpr ⟨hw', hb', hg, r, hr, by rw [hs], by rw [hs, hc, Move.count]⟩
        | some anchor =>
            by_cases ha : anchor = line
            · have hs : f.settle tokens r line = (.stayed, anchor) := by simp [Frame.settle, ht, hsnap, ha]
              simp only [ne_eq, ha, not_true_eq_false, if_false]
              exact ends_pure.mpr ⟨hw', hb', hg, r, hr, by rw [hs, ha], by rw [hs, hc, Move.count]⟩
            · have hs : f.settle tokens r line = (.snapped, anchor) := by simp [Frame.settle, ht, hsnap, ha]
              simp only [ne_eq, ha, not_false_eq_true, if_true]
              refine ends_count_bind <| ends_pure.mpr ?_
              exact ⟨hw', hb'.counted _, hg, r, hr, by rw [hs], by rw [hs, ← hc, Move.count]⟩
  · rintro e b' w' ⟨hw', hb', hg, -, he⟩
    exact ⟨hw', hb', hg, he⟩

/-! ## Markers -/

theorem Faithful.remember {path : String} {found : Option (List Marker)} {r : Reading}
    (h : Faithful A f tokens b) (hr : A path (.ok r)) (hf : f.markersIn r = .ok (found.getD [])) :
    Faithful A f tokens { b with markers := b.markers ++ [(path, found)] } := by
  refine ⟨h.tokens, h.cache, fun p found' hp => ?_⟩
  rw [AnchorCache.lookup?_concat] at hp
  cases hl : AnchorCache.lookup? p b.markers with
  | some known =>
      rw [hl, Option.some_or] at hp
      exact h.markers p found' (hl.trans hp)
  | none =>
      rw [hl, Option.none_or] at hp
      split at hp
      · next he =>
        obtain rfl := Option.some.inj hp
        exact ⟨r, he ▸ hr, hf⟩
      · cases hp

theorem markersOf_ends (hread : read.Answers I A) (hw : I w) (h : Faithful A f tokens b) (path : String) :
    (markersOf f read path).Ends b log w fun x b' w' =>
      I w' ∧ Faithful A f tokens b' ∧ b'.groups = b.groups ∧ b'.counts = b.counts ∧
        match x with
        | .error e => A path (.error e) ∨ ∃ r, A path (.ok r) ∧ f.markersIn r = .error e
        | .ok found => ∃ r, A path (.ok r) ∧ f.markersIn r = .ok (found.getD []) := by
  refine ends_get_bind ?_
  cases hl : AnchorCache.lookup? path b.markers with
  | some known => exact ⟨hw, h, rfl, rfl, h.markers path known hl⟩
  | none =>
      have hanswer := hread.answer path w hw
      have hw' := hread.stays path w hw
      refine ends_lift_bind ?_ ?_
      · intro r log hr
        rw [hr] at hanswer
        cases ht : r.text? with
        | none =>
            have hf : f.markersIn r = .ok ((none : Option (List Marker)).getD []) := by
              simp only [Frame.markersIn, ht, Option.getD_none]
            exact ⟨hw', h.remember hanswer hf, rfl, rfl, r, hanswer, hf⟩
        | some text =>
            have hf : f.markersIn r = Marker.findAll text f.settings.markerToken := by
              simp only [Frame.markersIn, ht]
            dsimp only
            refine ends_mk_bind ?_ ?_
            · intro found log hfound
              obtain ⟨markers, hm, rfl⟩ := map_eq_ok.mp hfound
              rw [hm] at hf
              exact ⟨hw', h.remember hanswer hf, rfl, rfl, r, hanswer, hf⟩
            · intro e he
              exact ⟨hw', h, rfl, rfl, .inr ⟨r, hanswer, hf.trans (map_eq_error.mp he)⟩⟩
      · intro e he
        rw [he] at hanswer
        exact ⟨hw', h, rfl, rfl, .inl hanswer⟩

/-! ## The verdict on a record -/

section Judged

variable {r : Record} {path name : String} {reading : Reading} {markers : List Marker}

theorem exists_answers (hA : ∀ path, ∃ x, A path x) {x : Except Fault Reading} (hx : A path x) :
    ∃ answers : String → Except Fault Reading, (∀ p, A p (answers p)) ∧ answers path = x := by
  choose g hg using hA
  refine ⟨fun p => if p = path then x else g p, fun p => ?_, if_pos rfl⟩
  by_cases hp : p = path
  · simpa [hp] using hx
  · simpa [hp] using hg p

theorem Judged.foreign (hA : ∀ path, ∃ x, A path x) (ho : f.origin r = .foreign path) :
    Judged A f tokens r (.ok .unattributed) := by
  choose g hg using hA
  exact ⟨g, g, hg, hg, by simp only [Frame.judge, ho]⟩

theorem Judged.source (hA : ∀ path, ∃ x, A path x) (ho : f.origin r = .source path) {x : Except Fault Reading}
    (hx : A path x) : Judged A f tokens r (x.map (f.judgeSource tokens r path (r.line - 1 : Nat))) := by
  obtain ⟨g, hg, rfl⟩ := exists_answers hA hx
  exact ⟨g, g, hg, hg, by simp only [Frame.judge, ho]⟩

theorem Judged.unread (hA : ∀ path, ∃ x, A path x) (ho : f.origin r = .shadow path name) {e : Fault}
    (hx : A path (.error e) ∨ ∃ reading, A path (.ok reading) ∧ f.markersIn reading = .error e) :
    Judged A f tokens r (.error e) := by
  rcases hx with hx | ⟨reading, hx, hm⟩
  · obtain ⟨g, hg, he⟩ := exists_answers hA hx
    exact ⟨g, g, hg, hg, by simp only [Frame.judge, ho, he, error_bind]⟩
  · obtain ⟨g, hg, he⟩ := exists_answers hA hx
    exact ⟨g, g, hg, hg, by simp only [Frame.judge, ho, he, ok_bind, hm, error_bind]⟩

theorem Judged.ungoverned (hA : ∀ path, ∃ x, A path x) (ho : f.origin r = .shadow path name)
    (hx : A path (.ok reading)) (hm : f.markersIn reading = .ok markers)
    (hn : Marker.resolve? markers (r.line - 1 : Nat) = none) :
    Judged A f tokens r (.ok (.placed .fallback (f.diagnostic r name (r.line - 1 : Nat)))) := by
  obtain ⟨g, hg, he⟩ := exists_answers hA hx
  exact ⟨g, g, hg, hg, by simp only [Frame.judge, ho, he, ok_bind, hm, Frame.judgeShadow, hn]⟩

theorem Judged.governed (hA : ∀ path, ∃ x, A path x) (ho : f.origin r = .shadow path name)
    (hx : A path (.ok reading)) (hm : f.markersIn reading = .ok markers) {line : Int}
    (hn : Marker.resolve? markers (r.line - 1 : Nat) = some line) {y : Except Fault Reading} (hy : A name y) :
    Judged A f tokens r (y.map (f.judgeSource tokens r name line)) := by
  obtain ⟨g, hg, he⟩ := exists_answers hA hx
  obtain ⟨g', hg', rfl⟩ := exists_answers hA hy
  exact ⟨g, g', hg, hg', by simp only [Frame.judge, ho, he, ok_bind, hm, Frame.judgeShadow, hn]⟩

end Judged

/-! ## Taking records -/

/-- Where a batch stands, and with what result, once it has found the place of a record. -/
def Located (I : σ → Prop) (A : String → Except Fault Reading → Prop) (f : Frame) (tokens : List String)
    (r : Record) (b : Batch) (x : Except Fault (Option (String × Int))) (b' : Batch) (w' : σ) : Prop :=
  I w' ∧ Faithful A f tokens b' ∧ b'.groups = b.groups ∧
    match x with
    | .error e => Judged A f tokens r (.error e)
    | .ok place => ∃ v, Judged A f tokens r (.ok v) ∧
        v.diagnostic? = place.map (fun p => f.diagnostic r p.1 p.2) ∧ b'.counts = v.move.count b.counts

theorem snap_located {r : Record} {path : String} {line : Int} {b₀ : Batch} (hread : read.Answers I A)
    (hw : I w) (h : Faithful A f tokens b) (hg : b.groups = b₀.groups) (hc : b.counts = b₀.counts)
    (hj : ∀ x, A path x → Judged A f tokens r (x.map (f.judgeSource tokens r path line))) :
    (do pure (some (path, ← snap f read path line)) : BatchM (StateM σ) (Option (String × Int))).Ends b log w
      (Located I A f tokens r b₀) := by
  refine Ends.bind (snap_ends hread hw h path line) ?_ ?_
  · rintro line' b' log w' ⟨hw', hb', hg', reading, hr, rfl, hc'⟩
    exact ends_pure.mpr ⟨hw', hb', hg'.trans hg, _, hj _ hr, rfl, hc ▸ hc'⟩
  · rintro e b' w' ⟨hw', hb', hg', he⟩
    exact ⟨hw', hb', hg'.trans hg, hj _ he⟩

theorem locate_ends (hread : read.Answers I A) (hw : I w) (h : Faithful A f tokens b) (r : Record) :
    (locate f read r).Ends b log w (Located I A f tokens r b) := by
  have hA : ∀ path, ∃ x, A path x := fun path => ⟨_, hread.answer path w hw⟩
  unfold locate
  cases ho : f.origin r with
  | source path => exact snap_located hread hw h rfl rfl fun x hx => .source hA ho hx
  | foreign path =>
      exact ends_log_bind fun log => ends_pure.mpr ⟨hw, h, rfl, _, .foreign hA ho, rfl, rfl⟩
  | shadow path name =>
      refine Ends.bind (markersOf_ends hread hw h path) ?_ ?_
      · rintro found b' log w' ⟨hw', hb', hg, hc, reading, hr, hm⟩
        dsimp only
        cases hgov : Marker.governing? (found.getD []) (r.line - 1 : Nat) with
        | none =>
            have hn : Marker.resolve? (found.getD []) (r.line - 1 : Nat) = none := by
              rw [Marker.resolve?, hgov, Option.map_none]
            dsimp only
            refine ends_count_bind <| ends_log_bind fun log => ends_pure.mpr ?_
            exact ⟨hw', hb'.counted _, hg, _, .ungoverned hA ho hr hm hn, rfl, by rw [hc]; rfl⟩
        | some marker =>
            obtain ⟨line, hn⟩ : ∃ line, Marker.resolve? (found.getD []) (r.line - 1 : Nat) = some line :=
              ⟨_, by rw [Marker.resolve?, hgov, Option.map_some]⟩
            have hsnap : ∀ log', (do pure (some (name, ← snap f read name line)) : BatchM (StateM σ) _).Ends
                b' log' w' (Located I A f tokens r b) := fun log' =>
              snap_located hread hw' hb' hg hc fun y hy => .governed hA ho hr hm hn hy
            simp only [hn]
            split
            · exact ends_log_bind hsnap
            · exact hsnap log
      · rintro e b' w' ⟨hw', hb', hg, -, he⟩
        exact ⟨hw', hb', hg, .unread hA ho he⟩

theorem Faithful.grouped (h : Faithful A f tokens b) (g : Groups) :
    Faithful A f tokens { b with groups := g } := ⟨h.tokens, h.cache, h.markers⟩

theorem take_ends (hread : read.Answers I A) (hw : I w) (h : Faithful A f tokens b) (r : Record) :
    (take f read r).Ends b log w fun x b' w' =>
      I w' ∧ Faithful A f tokens b' ∧
        match x with
        | .error e => Judged A f tokens r (.error e)
        | .ok () => ∃ v, Judged A f tokens r (.ok v) ∧
            (b'.groups, b'.counts) = enter f.workspace (b.groups, b.counts) v := by
  refine Ends.bind (locate_ends hread hw h r) ?_ ?_
  · rintro place b' log w' ⟨hw', hb', hg, v, hv, hd, hc⟩
    cases v with
    | unattributed =>
        cases place with
        | some place => cases hd
        | none =>
            exact ends_count.mpr ⟨hw', hb'.counted _, _, hv, by rw [hg, hc]; rfl⟩
    | placed move d =>
        cases place with
        | none => cases hd
        | some place =>
            obtain rfl := Option.some.inj hd
            have hfile : (f.diagnostic r place.1 place.2).file = place.1 := rfl
            change b'.counts = move.count b.counts at hc
            dsimp only
            cases hin : Path.isWithin place.1 f.workspace with
            | false =>
                simp only [Bool.not_false, if_true]
                refine ends_log_bind fun log => ends_count.mpr ⟨hw', hb'.counted _, _, hv, ?_⟩
                rw [enter_outside (hfile ▸ hin)]
                simp only [hg, hc]
            | true =>
                simp only [Bool.not_true, Bool.false_eq_true, if_false]
                refine ends_get_bind ?_
                rw [hg]
                cases hhas : b.groups.has (f.diagnostic r place.1 place.2) with
                | true =>
                    simp only [if_true]
                    refine ends_count.mpr ⟨hw', hb'.counted _, _, hv, ?_⟩
                    rw [enter_repeated (hfile ▸ hin) hhas]
                    simp only [hg, hc]
                | false =>
                    simp only [Bool.false_eq_true, if_false]
                    refine ends_modify_bind <| ends_count.mpr ⟨hw', ?_, _, hv, ?_⟩
                    · exact (hb'.grouped _).counted _
                    · rw [enter_new (hfile ▸ hin) hhas]
                      simp only [hg, hc]
  · rintro e b' w' ⟨hw', hb', hg, he⟩
    exact ⟨hw', hb', he⟩

theorem takeAll_ends (hread : read.Answers I A) (hw : I w) (h : Faithful A f tokens b) (records : List Record) :
    (takeAll f read records).Ends b log w fun x b' w' =>
      I w' ∧
        match x with
        | .error e => ∃ done r rest vs, records = done ++ r :: rest ∧
            List.Forall₂ (fun r v => Judged A f tokens r (.ok v)) done vs ∧ Judged A f tokens r (.error e)
        | .ok () => ∃ vs, List.Forall₂ (fun r v => Judged A f tokens r (.ok v)) records vs ∧
            (b'.groups, b'.counts) = vs.foldl (enter f.workspace) (b.groups, b.counts) := by
  induction records generalizing b log w with
  | nil => exact ends_pure.mpr ⟨hw, [], .nil, rfl⟩
  | cons r records ih =>
      refine Ends.bind (take_ends hread hw h r) ?_ ?_
      · rintro _ b₁ log w₁ ⟨hw₁, hb₁, v, hv, hs⟩
        refine (ih hw₁ hb₁).mono ?_
        rintro x b₂ w₂ ⟨hw₂, hx⟩
        refine ⟨hw₂, ?_⟩
        cases x with
        | error e =>
            obtain ⟨done, r', rest, vs, rfl, hvs, he⟩ := hx
            exact ⟨r :: done, r', rest, v :: vs, rfl, .cons hv hvs, he⟩
        | ok =>
            obtain ⟨vs, hvs, hs'⟩ := hx
            exact ⟨v :: vs, .cons hv hvs, by rw [hs', hs, List.foldl_cons]⟩
      · rintro e b' w' ⟨hw', -, he⟩
        exact ⟨hw', [], r, records, [], rfl, .nil, he⟩

end Backmap.Batch
