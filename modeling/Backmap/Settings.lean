import Backmap.Path.Tidy
import Backmap.Record

/-!
# Settings

The defaults are the layout that the contract generator writes.
-/

namespace Backmap

structure Settings where
  markerToken : String := "//line"
  directiveTokens : List String := ["@inco:", "@if:"]
  sourceSuffixes : List String := [".go", ".inco"]
  cacheDir : String := ".inco_cache"
  overlayFile : String := "overlay.json"
  moduleMarker : String := "go.mod"
  maxSnapDistance : Int := 30
  /-- Patterns of output lines that are chatter: package headers, and the summary behind the last error. -/
  noisePatterns : List Record.Noise := [.ofText "^#\\s", .ofText "too many errors\\s*$"]
  sourceTag : String := "inco"

namespace Settings

/-- What is doubtful about the settings. -/
def warnings (s : Settings) : List String :=
  (if s.maxSnapDistance < 0 then ["max_snap_distance must be non-negative"] else []) ++
  (if Text.allBlank s.markerToken.toList then ["marker_token must not be blank"] else []) ++
  (if s.directiveTokens = [] then ["directive_tokens is empty; nothing will be snapped"] else []) ++
  (if s.sourceSuffixes = [] then
    ["source_suffixes is empty; original-tree paths will not be recognised"] else [])

/-- Whether a path is that of a source: it has a suffix of one, and the cache folder is not on its way. -/
def isSource (s : Settings) (path : String) : Bool :=
  s.sourceSuffixes.any (fun suffix => suffix.toList.isSuffixOf path.toList) &&
    !(Path.Tidy.ofString path).steps.contains s.cacheDir

/-- Values that replace those of some settings where they are given. -/
structure Changes where
  markerToken : Option String := none
  directiveTokens : Option (List String) := none
  sourceSuffixes : Option (List String) := none
  cacheDir : Option String := none
  overlayFile : Option String := none
  moduleMarker : Option String := none
  maxSnapDistance : Option Int := none
  noisePatterns : Option (List Record.Noise) := none
  sourceTag : Option String := none

def change (s : Settings) (c : Changes) : Settings where
  markerToken := c.markerToken.getD s.markerToken
  directiveTokens := c.directiveTokens.getD s.directiveTokens
  sourceSuffixes := c.sourceSuffixes.getD s.sourceSuffixes
  cacheDir := c.cacheDir.getD s.cacheDir
  overlayFile := c.overlayFile.getD s.overlayFile
  moduleMarker := c.moduleMarker.getD s.moduleMarker
  maxSnapDistance := c.maxSnapDistance.getD s.maxSnapDistance
  noisePatterns := c.noisePatterns.getD s.noisePatterns
  sourceTag := c.sourceTag.getD s.sourceTag

/-- The value of a variable, if it has one that is not empty. -/
def lookup? (environment : List (String × String)) (name : String) : Option String :=
  ((environment.find? (·.1 == name)).map (·.2)).filter (· ≠ "")

def distanceVariable : String := "INCODIAG_MAX_SNAP_DISTANCE"

/-- The settings that environment variables ask for. -/
def ofEnvironment (environment : List (String × String)) : Except Fault Settings :=
  let raw := ((lookup? environment distanceVariable).map fun s =>
    String.ofList (Text.trim s.toList)).getD ""
  let changes : Changes :=
    { markerToken := lookup? environment "INCODIAG_MARKER_TOKEN"
      cacheDir := lookup? environment "INCODIAG_CACHE_DIR" }
  if raw = "" then .ok (({} : Settings).change changes)
  else
    match Numeral.read raw with
    | .ok n => .ok (({} : Settings).change { changes with maxSnapDistance := some n })
    | .error _ =>
      let shown := Text.quoted raw
      .error (.settings s!"{distanceVariable}={shown} is not an integer")

end Settings

end Backmap
