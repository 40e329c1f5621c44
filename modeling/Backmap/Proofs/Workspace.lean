import Backmap.Proofs.Batch.Fresh
import Backmap.Proofs.Overlay
import Backmap.Proofs.Text.Lines
import Backmap.Proofs.Text.Utf8
import Backmap.Workspace

/-!
# File trees

A file tree is a machine that stays as it is. Nothing in it can be read by a path with a NUL, and a file of plain
characters is read as they stand.
-/

namespace Backmap

/-- A path with a NUL, which cannot be handed to the system. -/
def Path.HasNul (path : String) : Prop := '\x00' ∈ path.toList

instance (path : String) : Decidable (Path.HasNul path) := inferInstanceAs (Decidable ('\x00' ∈ path.toList))

namespace Workspace

def snapshot (dialect : Json.Dialect) (t : Workspace) : Snapshot := ⟨t.read, t.isFile, t.folders, dialect⟩

theorem read_of_hasNul {t : Workspace} {path : String} (h : Path.HasNul path) : t.read path = .error .nulInPath := by
  simp only [read, node, locate, List.contains_iff_mem.mpr h, if_true]

/-- The bytes of a text whose characters are all below 128. -/
def ascii (text : String) : ByteArray := ⟨(text.toList.map fun c => UInt8.ofNat c.toNat).toArray⟩

theorem decode_ascii {text : String} (h : ∀ c ∈ text.toList, c.toNat < 0x80 ∧ c ≠ '\r') :
    decode (ascii text) = text := by
  have hbyte : ∀ c ∈ text.toList, (UInt8.ofNat c.toNat).toNat = c.toNat := by
    intro c hc
    have hlt := (h c hc).1
    rw [UInt8.toNat_ofNat']
    omega
  have hbytes : ∀ b ∈ text.toList.map fun c => UInt8.ofNat c.toNat, b.toNat < 0x80 := by
    intro b hb
    obtain ⟨c, hc, rfl⟩ := List.mem_map.mp hb
    rw [hbyte c hc]
    exact (h c hc).1
  have hback : (text.toList.map fun c => UInt8.ofNat c.toNat).map (fun b => Char.ofNat b.toNat) = text.toList := by
    rw [List.map_map]
    refine (List.map_congr_left fun c hc => ?_).trans (List.map_id text.toList)
    rw [Function.comp_apply, hbyte c hc, Char.ofNat_toNat, id]
  have hreturn : '\r' ∉ text.toList := fun hr => (h _ hr).2 rfl
  rw [decode, ascii, Text.Utf8.decode_ascii hbytes, hback, Text.unifyNewlines_of_notMem hreturn, String.ofList_toList]

theorem read_of_ascii {t : Workspace} {path text : String} (hnode : t.node path = .ok (.file (ascii text)))
    (h : ∀ c ∈ text.toList, c.toNat < 0x80 ∧ c ≠ '\r') : t.read path = .ok (.text text) := by
  simp only [read, hnode, decode_ascii h]

/-- A source with a directive, and a file with nothing of note. -/
def twoFiles : Workspace where
  cwd := ["w"]
  nodes := [(["w"], .folder), (["w", "a.go"], .file (ascii "x\n\t// @if: y  \nz\n")),
    (["w", "c.go"], .file (ascii "x\n"))]

theorem read_twoFiles : twoFiles.read "/w/a.go" = .ok (.text "x\n\t// @if: y  \nz\n") ∧
    twoFiles.read "/w/b.go" = .ok (.refused ⟨.notFound, "/w/b.go"⟩) ∧ twoFiles.read "/w/c.go" = .ok (.text "x\n") :=
  ⟨read_of_ascii rfl (by simp), rfl, read_of_ascii rfl (by simp)⟩

end Workspace

namespace Machine

variable {σ : Type} {dialect : Json.Dialect} {workspace : σ → Workspace} {w : σ}

theorem ofState_keeps : (ofState dialect workspace).Keeps (· = w) :=
  ⟨fun _ _ h => h, fun _ _ h => h, fun _ _ h => h⟩

theorem ofState_answers :
    Reader.Answers (ofState dialect workspace).read (· = w) fun path a => a = (workspace w).read path :=
  ⟨fun _ _ h => by rw [← h]; rfl, fun _ _ h => h⟩

theorem eq_of_reached {w' : σ} (h : (ofState dialect workspace).Reached (ofState dialect workspace).read w w') :
    w' = w := by
  induction h with
  | start => rfl
  | reader path _ ih => exact ih
  | read path _ ih => exact ih
  | isFile path _ ih => exact ih
  | folders path _ ih => exact ih

end Machine

end Backmap
