import Backmap.Proofs.Record
import Backmap.Proofs.Text.Lines
import Backmap.Proofs.Text.Runs

/-!
# The grammar of compiler output

How a record is written on a line is told here part by part, without an order of reading. A line is read as a record
exactly if it is written as one, and output is read line by line.
-/

namespace Backmap

namespace Record

open Text

/-! ## How a record is written -/

/-- A path without a drive: free of colons. -/
def Plain (path : List Char) : Prop := path ≠ [] ∧ ':' ∉ path

/-- A path with a drive: a letter, a colon, and a path without one. -/
def OnDrive (path : List Char) : Prop :=
  ∃ letter rest, path = letter :: ':' :: rest ∧ letter.isAlpha = true ∧ Plain rest

/-- A message begins with no blank and does not end in what may stand behind it. -/
def IsMessage (message : List Char) : Prop :=
  (∃ c ∈ message.head?, isBlank c = false) ∧ ∀ c ∈ message.getLast?, isTrailing c = false

/-- A column as it stands behind the line, if there is one. -/
def columnText : Option (List Char) → List Char
  | none => []
  | some column => ':' :: column

/-- The parts make up the line, with a gap before the message and trailing blanks behind it. -/
structure Written (cs : List Char) (p : Parts) : Prop where
  path : Plain p.path ∨ OnDrive p.path
  line : Run isDigit p.line
  column : ∀ column ∈ p.column, Run isDigit column
  message : IsMessage p.message
  text : ∃ gap tail, Run isGap gap ∧ (∀ c ∈ tail, isTrailing c = true) ∧
    cs = p.path ++ ':' :: (p.line ++ (columnText p.column ++ ':' :: (gap ++ (p.message ++ tail))))

/-- The parts that a line is read as. If it can be written with a drive and without, the drive counts. -/
structure Reads (cs : List Char) (p : Parts) : Prop extends Written cs p where
  preferred : (∃ p', Written cs p' ∧ OnDrive p'.path) → OnDrive p.path

variable {cs line path start m : List Char} {p : Parts}

theorem isBlank_of_isGap {c : Char} (h : isGap c = true) : isBlank c = true := by
  simp only [isGap, Bool.or_eq_true, decide_eq_true_eq] at h
  rcases h with rfl | rfl <;> rfl

theorem isBlank_of_isTrailing {c : Char} (h : isTrailing c = true) : isBlank c = true := by
  simp only [isTrailing, Bool.or_eq_true, decide_eq_true_eq] at h
  rcases h with (rfl | rfl) | rfl <;> rfl

/-! ## Reading the parts -/

theorem isMessage_dropTailWhile {d : Char} {text : List Char} (hd : isBlank d = false) :
    IsMessage (dropTailWhile isTrailing (d :: text)) := by
  obtain ⟨tail, htext, -, hlast⟩ := exists_dropTailWhile isTrailing (d :: text)
  refine ⟨⟨d, ?_, hd⟩, hlast⟩
  cases hmessage : dropTailWhile isTrailing (d :: text) with
  | nil =>
      have hblank := isBlank_of_isTrailing (dropTailWhile_eq_nil.mp hmessage d List.mem_cons_self)
      rw [hd] at hblank
      cases hblank
  | cons d' message =>
      rw [hmessage] at htext
      rw [(List.cons.inj htext).1]
      rfl

theorem message?_eq_some : message? cs = some m ↔
    IsMessage m ∧ ∃ gap tail, Run isGap gap ∧ (∀ c ∈ tail, isTrailing c = true) ∧ cs = gap ++ (m ++ tail) := by
  constructor
  · intro h
    unfold message? at h
    split at h
    · next c cs =>
      have hsplit := List.takeWhile_append_dropWhile (p := isGap) (l := c :: cs)
      split at h
      · next hc =>
        have hgap : (c :: cs).takeWhile isGap ≠ [] := by simp [hc]
        split at h
        · cases h
        · next d text hdrop =>
          split at h
          · cases h
          · next hd =>
            obtain rfl := Option.some.inj h
            obtain ⟨tail, htext, htail, -⟩ := exists_dropTailWhile isTrailing (d :: text)
            refine ⟨isMessage_dropTailWhile (Bool.eq_false_iff.mpr hd), _, tail, run_takeWhile hgap, htail, ?_⟩
            rw [← htext, ← hdrop, hsplit]
      · cases h
    · cases h
  · rintro ⟨⟨⟨d, hd, hblank⟩, hlast⟩, gap, tail, ⟨hne, hgap⟩, htail, rfl⟩
    obtain ⟨message, rfl⟩ : ∃ message, m = d :: message := List.head?_eq_some_iff.mp hd
    obtain ⟨c, gap, rfl⟩ := List.exists_cons_of_ne_nil hne
    have hstop : ∀ c ∈ (d :: message ++ tail).head?, isGap c = false := by
      rintro c ⟨⟩
      exact Bool.eq_false_iff.mpr fun hg => Bool.eq_false_iff.mp hblank (isBlank_of_isGap hg)
    have hdrop : (c :: (gap ++ (d :: message ++ tail))).dropWhile isGap = d :: (message ++ tail) :=
      dropWhile_run hgap hstop
    simp only [List.cons_append, message?, hgap c List.mem_cons_self, if_true] at hdrop ⊢
    simp only [hdrop, hblank, Bool.false_eq_true, if_false]
    rw [← List.cons_append, dropTailWhile_run htail hlast]

theorem head_colon (rest : List Char) : ∀ c ∈ (':' :: rest).head?, isDigit c = false := by
  rintro c ⟨⟩
  decide

theorem takeWhile_of_message? (h : message? cs = some m) : cs.takeWhile isDigit = [] := by
  obtain ⟨-, gap, tail, ⟨hne, hgap⟩, -, rfl⟩ := message?_eq_some.mp h
  obtain ⟨c, gap, rfl⟩ := List.exists_cons_of_ne_nil hne
  have hc := hgap c List.mem_cons_self
  simp only [isGap, Bool.or_eq_true, decide_eq_true_eq] at hc
  have hdigit : isDigit c = false := by rcases hc with rfl | rfl <;> decide
  rw [List.cons_append, List.takeWhile_cons_of_neg (by simp [hdigit])]

theorem position?_eq_some : position? path cs = some p ↔
    p.path = path ∧ Run isDigit p.line ∧ (∀ column ∈ p.column, Run isDigit column) ∧
      ∃ rest, cs = ':' :: (p.line ++ (columnText p.column ++ ':' :: rest)) ∧ message? rest = some p.message := by
  constructor
  · intro h
    unfold position? at h
    split at h
    · next cs =>
      have hsplit := List.takeWhile_append_dropWhile (p := isDigit) (l := cs)
      dsimp only at h
      split at h
      · cases h
      · next hline =>
        split at h
        · next rest hrest =>
          have hsplit' := List.takeWhile_append_dropWhile (p := isDigit) (l := rest)
          split at h
          · obtain ⟨m, hm, rfl⟩ := Option.map_eq_some_iff.mp h
            refine ⟨rfl, run_takeWhile hline, nofun, rest, ?_, hm⟩
            rw [columnText, List.nil_append, ← hrest, hsplit]
          · next hcolumn =>
            split at h
            · next rest' hrest' =>
              obtain ⟨m, hm, rfl⟩ := Option.map_eq_some_iff.mp h
              refine ⟨rfl, run_takeWhile hline, ?_, rest', ?_, hm⟩
              · rintro column ⟨⟩
                exact run_takeWhile hcolumn
              · rw [columnText, List.cons_append, ← hrest', hsplit', ← hrest, hsplit]
            · cases h
        · cases h
    · cases h
  · rintro ⟨rfl, ⟨hne, hline⟩, hcolumn, rest, rfl, hm⟩
    obtain ⟨path, line, column, message⟩ := p
    dsimp only at hne hline hcolumn hm ⊢
    cases column with
    | none =>
        -- the gap before the message is not to be taken for a column
        simp only [position?, columnText, List.nil_append, takeWhile_run hline (head_colon _),
          dropWhile_run hline (head_colon _), hne, if_false, takeWhile_of_message? hm, if_true, hm, Option.map_some]
    | some column =>
        obtain ⟨hne', hdigits⟩ := hcolumn column rfl
        simp only [position?, columnText, List.cons_append, takeWhile_run hline (head_colon _),
          dropWhile_run hline (head_colon _), hne, if_false, takeWhile_run hdigits (head_colon _),
          dropWhile_run hdigits (head_colon _), hne', hm, Option.map_some]

theorem plain_iff_run {name : List Char} : Plain name ↔ Run (· != ':') name := by
  rw [Plain, Run]
  constructor
  · rintro ⟨hne, hcolon⟩
    refine ⟨hne, fun c hc => ?_⟩
    simp only [bne_iff_ne]
    exact fun h => hcolon (h ▸ hc)
  · rintro ⟨hne, hname⟩
    exact ⟨hne, fun hcolon => by simpa using hname ':' hcolon⟩

theorem from?_eq_some : from? start cs = some p ↔
    ∃ name rest, Plain name ∧ cs = name ++ rest ∧ position? (start ++ name) rest = some p := by
  constructor
  · intro h
    unfold from? at h
    dsimp only at h
    split at h
    · cases h
    · next hname =>
      exact ⟨_, _, plain_iff_run.mpr (run_takeWhile hname), List.takeWhile_append_dropWhile.symm, h⟩
  · rintro ⟨name, rest, hplain, rfl, h⟩
    obtain ⟨hne, hname⟩ := plain_iff_run.mp hplain
    have hstop : ∀ c ∈ rest.head?, (c != ':') = false := by
      obtain ⟨-, -, -, rest', rfl, -⟩ := position?_eq_some.mp h
      rintro c ⟨⟩
      rfl
    simp only [from?, takeWhile_run hname hstop, dropWhile_run hname hstop, hne, if_false, h]

theorem position?_iff_written (hpath : Plain path ∨ OnDrive path) :
    (∃ rest, cs = path ++ rest ∧ position? path rest = some p) ↔ Written cs p ∧ p.path = path := by
  constructor
  · rintro ⟨rest, rfl, h⟩
    obtain ⟨rfl, hline, hcolumn, rest, rfl, hm⟩ := position?_eq_some.mp h
    obtain ⟨hmessage, gap, tail, hgap, htail, rfl⟩ := message?_eq_some.mp hm
    exact ⟨⟨hpath, hline, hcolumn, hmessage, gap, tail, hgap, htail, rfl⟩, rfl⟩
  · rintro ⟨⟨-, hline, hcolumn, hmessage, gap, tail, hgap, htail, rfl⟩, rfl⟩
    refine ⟨_, rfl, position?_eq_some.mpr ⟨rfl, hline, hcolumn, _, rfl, ?_⟩⟩
    exact message?_eq_some.mpr ⟨hmessage, gap, tail, hgap, htail, rfl⟩

theorem plain_eq_some : from? [] cs = some p ↔ Written cs p ∧ Plain p.path := by
  rw [from?_eq_some]
  constructor
  · rintro ⟨name, rest, hplain, hcs, h⟩
    obtain ⟨hwritten, hpath⟩ := (position?_iff_written (.inl hplain)).mp ⟨rest, hcs, h⟩
    exact ⟨hwritten, hpath ▸ hplain⟩
  · rintro ⟨hwritten, hplain⟩
    obtain ⟨rest, hcs, h⟩ := (position?_iff_written (.inl hplain)).mpr ⟨hwritten, rfl⟩
    exact ⟨p.path, rest, hplain, hcs, h⟩

theorem drive?_eq_some {cs' : List Char} : drive? cs = some (start, cs') ↔
    ∃ letter, letter.isAlpha = true ∧ start = [letter, ':'] ∧ cs = letter :: ':' :: cs' := by
  unfold drive?
  split
  · next c rest =>
    constructor
    · intro h
      split at h
      · next hc =>
        cases h
        exact ⟨c, hc, rfl, rfl⟩
      · cases h
    · rintro ⟨letter, hletter, rfl, h⟩
      cases h
      simp [hletter]
  · next hno =>
    constructor
    · nofun
    · rintro ⟨letter, -, -, rfl⟩
      exact absurd rfl (hno letter cs')

theorem onDrive_eq_some : ((drive? cs).bind fun (start, cs) => from? start cs) = some p ↔
    Written cs p ∧ OnDrive p.path := by
  rw [Option.bind_eq_some_iff]
  constructor
  · rintro ⟨⟨start, cs'⟩, hdrive, hfrom⟩
    obtain ⟨letter, hletter, rfl, rfl⟩ := drive?_eq_some.mp hdrive
    obtain ⟨name, rest, hplain, rfl, h⟩ := from?_eq_some.mp hfrom
    have hpath : OnDrive ([letter, ':'] ++ name) := ⟨letter, name, rfl, hletter, hplain⟩
    obtain ⟨hwritten, he⟩ := (position?_iff_written (.inr hpath)).mp ⟨rest, rfl, h⟩
    exact ⟨hwritten, he ▸ hpath⟩
  · rintro ⟨hwritten, hpath⟩
    obtain ⟨rest, rfl, h⟩ := (position?_iff_written (.inr hpath)).mpr ⟨hwritten, rfl⟩
    obtain ⟨letter, name, hp, hletter, hplain⟩ := hpath
    rw [hp] at h ⊢
    exact ⟨([letter, ':'], name ++ rest), drive?_eq_some.mpr ⟨letter, hletter, rfl, rfl⟩,
      from?_eq_some.mpr ⟨name, rest, hplain, rfl, h⟩⟩

theorem parts?_eq_some : parts? cs = some p ↔ Reads cs p := by
  rw [parts?, Option.or_eq_some_iff, onDrive_eq_some, plain_eq_some]
  constructor
  · rintro (⟨hwritten, hdrive⟩ | ⟨hnone, hwritten, hplain⟩)
    · exact ⟨hwritten, fun _ => hdrive⟩
    · refine ⟨hwritten, ?_⟩
      rintro ⟨p', hdrive⟩
      rw [onDrive_eq_some.mpr hdrive] at hnone
      cases hnone
  · rintro ⟨hwritten, hpreferred⟩
    -- only where no drive can be read is the line tried without one
    by_cases hdrive : ∃ p', Written cs p' ∧ OnDrive p'.path
    · exact .inl ⟨hwritten, hpreferred hdrive⟩
    · have hnone := Option.eq_none_iff_forall_ne_some.mpr fun p' h => hdrive ⟨p', onDrive_eq_some.mp h⟩
      refine .inr ⟨hnone, hwritten, ?_⟩
      exact hwritten.path.resolve_right fun h => hdrive ⟨p, hwritten, h⟩

/-! ## What comes of a line -/

/-- The line is read as `p`, which names a file, and no pattern is found in it. -/
structure Reports (searches : List Search) (cs : List Char) (p : Parts) : Prop extends Reads cs p where
  named : ∃ c ∈ p.path, isBlank c = false
  quiet : ∀ search ∈ searches, search cs = false

def Parts.toRecord (p : Parts) : Record :=
  ⟨String.ofList (trim p.path), Numeral.value p.line, p.column.map Numeral.value, String.ofList p.message⟩

/-- What comes of a line: no record, one, or the fault of a number that is too long. -/
inductive ComesTo (searches : List Search) (line : List Char) : Except Fault (List Record) → Prop
  | nothing (h : ∀ p, ¬ Reports searches line p) : ComesTo searches line (.ok [])
  | record {p : Parts} (h : Reports searches line p) (hline : p.line.length ≤ Numeral.limit)
      (hcolumn : ∀ column ∈ p.column, column.length ≤ Numeral.limit) : ComesTo searches line (.ok [p.toRecord])
  | longLine {p : Parts} (h : Reports searches line p) (hline : Numeral.limit < p.line.length) :
      ComesTo searches line (.error (.numeral (.tooLong p.line.length)))
  | longColumn {p : Parts} {column : List Char} (h : Reports searches line p)
      (hline : p.line.length ≤ Numeral.limit) (hp : p.column = some column)
      (hcolumn : Numeral.limit < column.length) :
      ComesTo searches line (.error (.numeral (.tooLong column.length)))

variable {searches : List Search} {lines : List (List Char)}

theorem isNoise_eq_false : isNoise searches line = false ↔ ∀ search ∈ searches, search line = false := by
  simp [isNoise]

theorem reports_iff : Reports searches line p ↔
    parts? line = some p ∧ trim p.path ≠ [] ∧ isNoise searches line = false := by
  have hnamed : trim p.path ≠ [] ↔ ∃ c ∈ p.path, isBlank c = false := by simp [trim_eq_nil]
  rw [parts?_eq_some, hnamed, isNoise_eq_false]
  exact ⟨fun h => ⟨h.toReads, h.named, h.quiet⟩, fun ⟨hreads, hnamed, hquiet⟩ => ⟨hreads, hnamed, hquiet⟩⟩

theorem collect_of_reports (h : Reports searches line p) :
    collect searches [line] = p.record.map ([·]) := by
  obtain ⟨hparts, htrim, hnoise⟩ := reports_iff.mp h
  simp only [collect, Line.ofText, hparts, htrim, hnoise, decide_false, Bool.or_self, Bool.false_eq_true, if_false]
  cases p.record <;> rfl

theorem collect_of_not_reports (h : ∀ p, ¬ Reports searches line p) : collect searches [line] = .ok [] := by
  simp only [reports_iff] at h
  unfold collect Line.ofText
  cases hparts : parts? line with
  | none => rfl
  | some p =>
      have hskip : (decide (trim p.path = []) || isNoise searches line) = true := by
        by_contra hno
        simp only [Bool.or_eq_true, decide_eq_true_eq, not_or] at hno
        exact h p ⟨hparts, hno.1, Bool.eq_false_iff.mpr hno.2⟩
      simp only [hskip, if_true]
      rfl

theorem ComesTo.collect_eq {x : Except Fault (List Record)} (h : ComesTo searches line x) :
    collect searches [line] = x := by
  cases h with
  | nothing h => exact collect_of_not_reports h
  | record h hline hcolumn => rw [collect_of_reports h, Parts.record_of_fit hline hcolumn]; rfl
  | longLine h hline => rw [collect_of_reports h, Parts.record_of_longLine hline]; rfl
  | longColumn h hline hp hcolumn => rw [collect_of_reports h, Parts.record_of_longColumn hline hp hcolumn]; rfl

theorem exists_comesTo (searches : List Search) (line : List Char) : ∃ x, ComesTo searches line x := by
  by_cases h : ∃ p, Reports searches line p
  · obtain ⟨p, h⟩ := h
    by_cases hline : p.line.length ≤ Numeral.limit
    · by_cases hcolumn : ∀ column ∈ p.column, column.length ≤ Numeral.limit
      · exact ⟨_, .record h hline hcolumn⟩
      · simp only [Classical.not_forall, not_le] at hcolumn
        obtain ⟨column, hp, hcolumn⟩ := hcolumn
        exact ⟨_, .longColumn h hline hp hcolumn⟩
    · exact ⟨_, .longLine h (not_le.mp hline)⟩
  · exact ⟨_, .nothing (not_exists.mp h)⟩

theorem collect_eq_iff {x : Except Fault (List Record)} :
    collect searches [line] = x ↔ ComesTo searches line x := by
  constructor
  · rintro rfl
    -- something comes of every line, and it is what is collected
    obtain ⟨x, hx⟩ := exists_comesTo searches line
    exact hx.collect_eq ▸ hx
  · exact ComesTo.collect_eq

/-! ## Line by line -/

theorem collect_cons (line : List Char) (lines : List (List Char)) : collect searches (line :: lines) =
    (do return (← collect searches [line]) ++ (← collect searches lines)) := by
  simp only [collect]
  cases Line.ofText searches line <;> cases collect searches lines <;> rfl

theorem collect_append (before after : List (List Char)) : collect searches (before ++ after) =
    (do return (← collect searches before) ++ (← collect searches after)) := by
  induction before with
  | nil =>
      rw [List.nil_append]
      cases collect searches after <;> rfl
  | cons line before ih =>
      rw [List.cons_append, collect_cons, ih, collect_cons line before]
      cases collect searches [line] <;> cases collect searches before <;> cases collect searches after <;>
        simp [ok_bind, error_bind]

theorem collect_eq_mapM {g : List Char → Except Fault (List Record)}
    (hg : ∀ line ∈ lines, g line = collect searches [line]) :
    collect searches lines = (lines.mapM g).map List.flatten := by
  induction lines with
  | nil => rfl
  | cons line lines ih =>
      obtain ⟨hline, hlines⟩ := List.forall_mem_cons.mp hg
      rw [collect_cons, ih hlines, List.mapM_cons, hline]
      cases collect searches [line] <;> cases lines.mapM g <;> rfl

variable {σ : Type}

/-- What reading a text comes to, with the log and the state that it is read in. -/
def outcome (noise : List Noise) (log : Log) (w : σ) (text : List Char) : Except Fault (List Record) :=
  (((parse (String.ofList text) noise : Task (StateM σ) _).run.run log).run w).1.1

variable {noise : List Noise}

theorem outcome_eq (hp : readPatterns noise = .ok searches) (log : Log) (w : σ) (text : List Char) :
    outcome noise log w text = collect searches (text.splitOn '\n') := by
  have hends : (parse (String.ofList text) noise : Task (StateM σ) _).Ends log w fun x w' =>
      x = parsed (String.ofList text) noise ∧ w' = w := parse_ends
  rw [outcome, hends.1, parsed, hp, ok_bind, String.toList_ofList, splitOn_eq]

theorem outcome_line (hp : readPatterns noise = .ok searches) (log : Log) (w : σ) (hline : '\n' ∉ line) :
    outcome noise log w line = collect searches [line] := by
  rw [outcome_eq hp, List.splitOn_eq_singleton hline]

/-- Output is read line by line, and of a line comes what its grammar tells: a text on either side of a line break is
read as it would be alone, and of the faults in both the first is met. -/
theorem outcome_by_grammar (hp : readPatterns noise = .ok searches) (log : Log) (w : σ) :
    (∀ text, outcome noise log w text = ((text.splitOn '\n').mapM (outcome noise log w)).map List.flatten) ∧
    (∀ line x, '\n' ∉ line → (outcome noise log w line = x ↔ ComesTo searches line x)) ∧
    ∀ before after, outcome noise log w (before ++ '\n' :: after) =
      (do return (← outcome noise log w before) ++ (← outcome noise log w after)) := by
  refine ⟨fun text => ?_, fun line x hline => ?_, fun before after => ?_⟩
  · rw [outcome_eq hp]
    refine collect_eq_mapM fun line hline => outcome_line hp log w ?_
    rw [← splitOn_eq] at hline
    exact notMem_of_mem_splitOn hline
  · rw [outcome_line hp log w hline, collect_eq_iff]
  · simp only [outcome_eq hp, List.splitOn_eq_splitOnP]
    rw [List.splitOnP_append_cons before after (by rfl), collect_append]

/-- A pattern outside the grammar of the library: a `b`, large or small, at the beginning of a line. -/
def beginsWithB : Noise := ⟨"(?i)^b", .ok fun line => line.head?.any (·.toLower = 'b')⟩

/-- The first line could be a file `C` too, at line 5 and column 3. The second is noise. -/
theorem outcome_by_grammar_drive :
    readPatterns [beginsWithB] = .ok [fun line => line.head?.any (·.toLower = 'b')] ∧
      outcome [beginsWithB] #[] () ("C:5:3: m \t".toList ++ '\n' :: "B:1: m".toList) = .ok [⟨"C:5", 3, none, "m"⟩] := by
  have hp : readPatterns [beginsWithB] = .ok [fun line => line.head?.any (·.toLower = 'b')] := rfl
  obtain ⟨-, hline, happend⟩ := outcome_by_grammar hp #[] ()
  have hdrive : outcome [beginsWithB] #[] () "C:5:3: m \t".toList = .ok [⟨"C:5", 3, none, "m"⟩] := by
    have hpath : OnDrive "C:5".toList := ⟨'C', ['5'], rfl, rfl, by decide, by decide⟩
    refine (hline _ _ (by decide)).mpr (.record (p := ⟨"C:5".toList, ['3'], none, ['m']⟩) ?_ (by decide) nofun)
    have hdigits : Run isDigit ['3'] := ⟨nofun, List.forall_mem_singleton.mpr (by decide)⟩
    have hmessage : IsMessage ['m'] := ⟨⟨'m', rfl, by decide⟩, by rintro c ⟨⟩; decide⟩
    refine ⟨⟨⟨.inr hpath, hdigits, nofun, hmessage, ?_⟩, fun _ => hpath⟩, ?_, ?_⟩
    · exact ⟨[' '], [' ', '\t'], ⟨nofun, by simp [isGap]⟩, by simp [isTrailing], rfl⟩
    · exact ⟨'C', by decide, by decide⟩
    · decide
  have hnoise : outcome [beginsWithB] #[] () "B:1: m".toList = .ok [] := by
    refine (hline _ _ (by decide)).mpr (.nothing fun p h => ?_)
    have hquiet := h.quiet _ List.mem_cons_self
    revert hquiet
    decide
  refine ⟨hp, (happend _ _).trans ?_⟩
  rw [hdrive, hnoise]
  rfl

end Record

end Backmap
