import Choreo.Tools.ReadReports

/-!
# The walk of `find`

`run_find_walk` (`choreo-daemon/src/tools/find.rs`) streams a line for every matching entry and
returns the lines with a marker, if the walk stopped early. The matching entries come in the order
of the walk; how a size is displayed comes from a package of its own.

## Main definitions

* `Choreo.FindWalk.visit`: the walk over the matching entries.
* `Choreo.runFindWalk`: what the tool streams and returns.

## Main results

* `Choreo.runFindWalk_truthful`: the streamed chunks are the result, recording changes nothing in
  it, and it has the marker exactly if the walk stopped early.
-/

namespace Choreo

open List Option

/-- How sizes are displayed, in ASCII characters. -/
structure SizeFormat where
  humanSize : ℕ → Text
  ascii : ∀ size, ∀ c ∈ humanSize size, c.toNat < 0x80

/-- Bytes without a larger unit. -/
def SizeFormat.bytes : SizeFormat where
  humanSize size := Nat.toDigits 10 size ++ " B".toList
  ascii size c hc := (mem_append.1 hc).elim (toDigits_ascii (by norm_num) size c)
    (Utf8.ascii_of_all (by decide) c)

/-- The kind of an entry: a file has a size, if it is known, and a link a target, if it can be
read, which can be a directory. -/
inductive WalkEntryKind
  | dir
  | file (size : Option ℕ)
  | symlink (target : Option (Text × Bool))
  | unknown

/-- A matching entry: its path from the root of the search, and its kind. -/
structure WalkEntry where
  relativePath : Text
  kind : WalkEntryKind

/-- What a walk collected: the lines, their bytes, the chunks that were streamed, and whether it
stopped early. -/
structure FindWalk where
  results : List Text := []
  contentBytes : ℕ := 0
  chunks : List (List UInt8) := []
  truncated : Bool := false

/-- What the tool streams and returns, with the lines and the marker it is made of. -/
structure FindOutput where
  chunks : List (List UInt8)
  results : List Text
  marker : Option Text
  content : Text

section Find

variable (unicode : FormatCategory) (format : SizeFormat)

/-- Escapes a name. -/
def sanitizeName (name : Text) : Text := sanitizeText unicode name false

/-- The target of a link as it is shown. -/
def symlinkTargetLabel : Option (Text × Bool) → Text
  | none => "<unreadable target>".toList
  | some (target, isDir) => sanitizeName unicode (if isDir then target ++ ['/'] else target)

def WalkEntry.line (entry : WalkEntry) : Text :=
  let rel := sanitizeName unicode entry.relativePath
  match entry.kind with
  | .dir => rel ++ ['/']
  | .file (some size) => rel ++ "  ".toList ++ format.humanSize size
  | .file none => rel
  | .symlink target => rel ++ " -> ".toList ++ symlinkTargetLabel unicode target
  | .unknown => rel

/-- The marker of a search that stopped early. -/
def truncationMarker (truncated : Bool) (cap : ℕ) (noun : Text) : Option Text :=
  if truncated then
    some ("...[truncated at ".toList ++ Nat.toDigits 10 cap ++ [' '] ++ noun ++ [']'])
  else none

/-- The bytes of the lines, with room for the longest marker and for a cut's own. -/
def walkBudget (maxResults : ℕ) : ℕ :=
  let longest := "...[truncated at ".toList ++ Nat.toDigits 10 maxResults ++ " results]".toList
  maxToolOutputBytes - (1 + Utf8.size longest + Utf8.size truncationSuffix)

/-- The walk over the lines of the matching entries. -/
def FindWalk.visit (budget maxResults : ℕ) (walk : FindWalk) : List Text → FindWalk
  | [] => walk
  | line :: lines =>
    let lineBytes := Utf8.size line + 1
    if walk.results ≠ [] ∧ budget < walk.contentBytes + lineBytes then
      { walk with truncated := true }
    else
      let walk := { walk with
        contentBytes := walk.contentBytes + lineBytes
        chunks := walk.chunks ++ [Utf8.encode (line ++ ['\n'])]
        results := walk.results ++ [line] }
      if maxResults ≤ walk.results.length then { walk with truncated := true }
      else walk.visit budget maxResults lines

/-- The number of results a caller can ask for. -/
def clampResults (maxResults : ℕ) : ℕ := min (max maxResults 1) 200

def runFindWalk (entries : List WalkEntry) (maxResults : ℕ) : FindOutput :=
  let cap := clampResults maxResults
  let walk := FindWalk.visit (walkBudget cap) cap {} (entries.map (·.line unicode format))
  let marker := truncationMarker walk.truncated walk.results.length "results".toList
  { chunks := walk.chunks ++ marker.toList.map fun marker => Utf8.encode (marker ++ ['\n'])
    results := walk.results
    marker := marker
    content := if walk.results = [] then []
      else finishToolOutput (['\n'].intercalate walk.results) marker }

end Find

/-! ### The lines of the walk -/

variable {unicode : FormatCategory} {format : SizeFormat} {budget cap : ℕ} {walk : FindWalk}
  {lines : List Text}

theorem clean_sanitizeName (name : Text) : Clean unicode (sanitizeName unicode name) :=
  clean_sanitizeText name false

theorem sanitizeName_of_keeps {name : Text} (h : ∀ c ∈ name, sanitizeKeeps unicode c false) :
    sanitizeName unicode name = name := by
  rw [sanitizeName, sanitizeText]
  split_ifs
  · rfl
  · rw [flatMap_congr fun c hc => if_pos (h c hc), flatMap_singleton']

/-- A line has no characters that recording escapes. -/
theorem WalkEntry.clean_line (entry : WalkEntry) : Clean unicode (entry.line unicode format) := by
  have hrel := @clean_sanitizeName unicode entry.relativePath
  have hascii {text : Text} (h : (text.all fun c => c.toNat < 0x80) = true) :
      Clean unicode text := clean_of_ascii (Utf8.ascii_of_all h)
  rw [WalkEntry.line]
  split
  · exact clean_append.2 ⟨hrel, hascii (by decide)⟩
  · exact clean_append.2 ⟨clean_append.2 ⟨hrel, hascii (by decide)⟩,
      clean_of_ascii (format.ascii _)⟩
  · exact hrel
  · refine clean_append.2 ⟨clean_append.2 ⟨hrel, hascii (by decide)⟩, ?_⟩
    rw [symlinkTargetLabel.eq_def]
    split
    · exact hascii (by decide)
    · exact clean_sanitizeName _
  · exact hrel

/-- What a walk has streamed and counted, and that it is within the budget. -/
structure FindWalk.Booked (budget : ℕ) (walk : FindWalk) : Prop where
  chunks : walk.chunks = walk.results.map fun line => Utf8.encode (line ++ ['\n'])
  bytes : walk.contentBytes = (walk.results.map fun line => Utf8.size line + 1).sum
  fits : walk.results.length ≤ 1 ∨ walk.contentBytes ≤ budget

theorem FindWalk.Booked.push {line : Text} (h : walk.Booked budget)
    (hfull : ¬(walk.results ≠ [] ∧ budget < walk.contentBytes + (Utf8.size line + 1))) :
    FindWalk.Booked budget { walk with
      contentBytes := walk.contentBytes + (Utf8.size line + 1)
      chunks := walk.chunks ++ [Utf8.encode (line ++ ['\n'])]
      results := walk.results ++ [line] } where
  chunks := by rw [h.chunks, map_append, map_singleton]
  bytes := by rw [h.bytes, map_append, sum_append, map_singleton, sum_singleton]
  fits := by
    by_cases hnil : walk.results = []
    · simp [hnil]
    · exact .inr (Nat.le_of_not_lt fun hlt => hfull ⟨hnil, hlt⟩)

/-- The walk books every line it reports, and stops early before a line that it does not report
or at the cap. -/
theorem FindWalk.booked_visit (hwalk : walk.Booked budget) (hopen : walk.truncated = false)
    (hcap : walk.results.length < cap) :
    (walk.visit budget cap lines).Booked budget ∧
      (walk.visit budget cap lines).results.length ≤ cap ∧
      ((walk.visit budget cap lines).truncated = true →
        (walk.visit budget cap lines).results ≠ []) ∧
      ∃ rest, walk.results ++ lines = (walk.visit budget cap lines).results ++ rest ∧
        ((walk.visit budget cap lines).truncated = true ↔
          rest ≠ [] ∨ (walk.visit budget cap lines).results.length = cap) := by
  induction lines generalizing walk with
  | nil =>
    rw [visit]
    refine ⟨hwalk, hcap.le, fun h => ?_, [], rfl, ?_⟩
    · rw [hopen] at h
      cases h
    · simp [hopen, hcap.ne]
  | cons line lines ih =>
    rw [visit]
    dsimp only
    split_ifs with hfull hcount
    · exact ⟨⟨hwalk.chunks, hwalk.bytes, hwalk.fits⟩, hcap.le, fun _ => hfull.1, line :: lines,
        rfl, by simp⟩
    · have hbooked := hwalk.push hfull
      have hlen : (walk.results ++ [line]).length = cap := by
        rw [length_append, length_singleton] at hcount ⊢
        omega
      exact ⟨⟨hbooked.chunks, hbooked.bytes, hbooked.fits⟩, hlen.le, fun _ => by simp, lines,
        by simp, by simp [hlen]⟩
    · obtain ⟨hbooked, hlen, hne, rest, hrest, htruncated⟩ :=
        ih (hwalk.push hfull) hopen (Nat.lt_of_not_le hcount)
      exact ⟨hbooked, hlen, hne, rest, by simpa using hrest, htruncated⟩

/-! ### The returned text -/

theorem intercalate_concat (line last : Text) (lines : List Text) :
    ['\n'].intercalate (line :: lines ++ [last]) =
      ['\n'].intercalate (line :: lines) ++ '\n' :: last := by
  induction lines generalizing line with
  | nil =>
    rw [singleton_append, intercalate_cons_cons, intercalate_singleton, intercalate_singleton,
      append_assoc, singleton_append]
  | cons next lines ih =>
    rw [cons_append, cons_append, intercalate_cons_cons, ← cons_append, ih,
      intercalate_cons_cons, append_assoc (line ++ ['\n'])]

theorem flatten_ended (line : Text) (lines : List Text) :
    ((line :: lines).map fun line => Utf8.encode (line ++ ['\n'])).flatten =
      Utf8.encode (['\n'].intercalate (line :: lines)) ++ [0x0A] := by
  induction lines generalizing line with
  | nil => simp [Utf8.encode, String.utf8EncodeChar]
  | cons next lines ih =>
    rw [map_cons, flatten_cons, ih, intercalate_cons_cons, Utf8.encode_append (line ++ _),
      append_assoc]

theorem dropLast_flatten_ended (lines : List Text) :
    (lines.map fun line => Utf8.encode (line ++ ['\n'])).flatten.dropLast =
      Utf8.encode (['\n'].intercalate lines) := by
  cases lines with
  | nil => rfl
  | cons line lines => rw [flatten_ended, dropLast_concat]

theorem size_intercalate (line : Text) (lines : List Text) :
    Utf8.size (['\n'].intercalate (line :: lines)) + 1 =
      ((line :: lines).map fun line => Utf8.size line + 1).sum := by
  have h := congrArg length (flatten_ended line lines)
  rw [length_append, Utf8.length_encode, length_flatten, List.map_map] at h
  have hsize : (length ∘ fun line => Utf8.encode (line ++ ['\n'])) =
      fun line => Utf8.size line + 1 := by
    funext line
    rw [Function.comp_apply, Utf8.length_encode, Utf8.size_append]
    rfl
  rw [← hsize, h, length_singleton]

theorem length_toDigits_mono {m n : ℕ} (h : m ≤ n) :
    (Nat.toDigits 10 m).length ≤ (Nat.toDigits 10 n).length := by
  have hten : 1 < 10 := by norm_num
  have hpos := Nat.length_toDigits_pos (b := 10) (n := n)
  have hn := (Nat.length_toDigits_le_iff hten hpos).1 le_rfl
  exact (Nat.length_toDigits_le_iff hten hpos).2 (h.trans_lt hn)

theorem size_marker {n : ℕ} {marker : Text}
    (h : truncationMarker true n "results".toList = some marker) :
    Utf8.size ('\n' :: marker) = 27 + (Nat.toDigits 10 n).length := by
  have hconst : '\n'.utf8Size = 1 ∧ Utf8.size "...[truncated at ".toList = 17 ∧
      Utf8.size [' '] = 1 ∧ Utf8.size "results".toList = 7 ∧ Utf8.size [']'] = 1 := by decide
  obtain ⟨h1, h2, h3, h4, h5⟩ := hconst
  obtain rfl := some.inj h
  simp only [Utf8.size_append, Utf8.size_cons, h1, h2, h3, h4, h5,
    Utf8.size_eq_length (toDigits_ascii (by norm_num : 1 < 10) n)]
  omega

theorem walkBudget_le {n : ℕ} {marker : Text} (h : n ≤ cap)
    (hmarker : truncationMarker true n "results".toList = some marker) :
    walkBudget cap ≤
      maxToolOutputBytes - (Utf8.size ('\n' :: marker) + Utf8.size truncationSuffix) := by
  have hconst : Utf8.size "...[truncated at ".toList = 17 ∧
      Utf8.size " results]".toList = 9 := by decide
  have hlen := length_toDigits_mono h
  rw [size_marker hmarker, walkBudget]
  simp only [Utf8.size_append, hconst.1, hconst.2,
    Utf8.size_eq_length (toDigits_ascii (by norm_num : 1 < 10) cap)]
  omega

/-! ### The output of the tool -/

theorem clampResults_pos (maxResults : ℕ) : 0 < clampResults maxResults := by
  rw [clampResults]
  omega

/-- A body within the budget is followed by the marker, uncut. -/
theorem finishToolOutput_of_fits {first : Text} {truncated : Bool} {rest : List Text}
    (hcount : (first :: rest).length ≤ cap)
    (hfits : ((first :: rest).map fun line => Utf8.size line + 1).sum ≤ walkBudget cap) :
    let marker := truncationMarker truncated (first :: rest).length "results".toList
    finishToolOutput (['\n'].intercalate (first :: rest)) marker =
      ['\n'].intercalate (first :: rest ++ marker.toList) := by
  have hsize := size_intercalate first rest
  have hbody : Utf8.size (['\n'].intercalate (first :: rest)) ≤ walkBudget cap := by omega
  intro marker
  rcases hmarker : marker with - | text
  · rw [finishToolOutput, truncateToolOutput, truncateToolOutputAt_of_size_le, toList_none,
      append_nil]
    exact hbody.trans (Nat.sub_le _ _)
  · have htruncated : truncated = true := by
      by_contra hopen
      rw [show marker = none from if_neg hopen] at hmarker
      cases hmarker
    subst htruncated
    rw [toList_some, intercalate_concat]
    dsimp only [finishToolOutput]
    rw [truncateToolOutputAt_of_size_le (hbody.trans (walkBudget_le hcount hmarker))]

theorem size_truncateToolOutputAt_le (content : Text) (n : ℕ) :
    Utf8.size (truncateToolOutputAt content n) ≤ n + Utf8.size truncationSuffix := by
  rw [truncateToolOutputAt]
  split_ifs with h
  · exact h.trans (Nat.le_add_right _ _)
  · have hle := Utf8.size_floorPrefix_le n content
    rw [Utf8.size_append]
    omega

/-- An output with a marker of at most three digits is within the limit. -/
theorem size_finishToolOutput_some {n : ℕ} {body marker : Text} (hn : n ≤ 200)
    (hmarker : truncationMarker true n "results".toList = some marker) :
    Utf8.size (finishToolOutput body (some marker)) ≤ maxToolOutputBytes := by
  have hdigits : (Nat.toDigits 10 n).length ≤ 3 :=
    (Nat.length_toDigits_le_iff (by norm_num) (by norm_num)).2 (by omega)
  have h : Utf8.size ('\n' :: marker) + Utf8.size truncationSuffix ≤ maxToolOutputBytes := by
    have hsuffix : Utf8.size truncationSuffix = 15 := by decide
    rw [size_marker hmarker, hsuffix, maxToolOutputBytes]
    omega
  have hle := size_truncateToolOutputAt_le body
    (maxToolOutputBytes - (Utf8.size ('\n' :: marker) + Utf8.size truncationSuffix))
  dsimp only [finishToolOutput]
  rw [Utf8.size_append]
  omega

theorem truncationMarker_eq_some {truncated : Bool} {n : ℕ} {noun marker : Text}
    (h : truncationMarker truncated n noun = some marker) : truncated = true := by
  cases truncated with
  | false => cases h
  | true => rfl

theorem clean_intercalate (h : ∀ line ∈ lines, Clean unicode line) :
    Clean unicode (['\n'].intercalate lines) := by
  have hend : Clean unicode ['\n'] := clean_of_ascii (Utf8.ascii_of_all (by decide))
  cases lines with
  | nil => exact fun c hc => absurd hc not_mem_nil
  | cons line lines =>
    induction lines generalizing line with
    | nil =>
      rw [intercalate_singleton]
      exact h line mem_cons_self
    | cons next lines ih =>
      rw [intercalate_cons_cons]
      exact clean_append.2 ⟨clean_append.2 ⟨h line mem_cons_self, hend⟩,
        ih next fun line hline => h line (mem_cons_of_mem _ hline)⟩

theorem clean_finishToolOutput {body : Text} {truncated : Bool} {n : ℕ}
    (h : Clean unicode body) :
    Clean unicode (finishToolOutput body (truncationMarker truncated n "results".toList)) := by
  have hascii {text : Text} (h : (text.all fun c => c.toNat < 0x80) = true) :
      Clean unicode text := clean_of_ascii (Utf8.ascii_of_all h)
  cases truncated with
  | false => exact h.truncateToolOutput
  | true =>
    have hdigits := @clean_of_ascii unicode _ (toDigits_ascii (by norm_num : 1 < 10) n)
    have hmarker : Clean unicode ("...[truncated at ".toList ++ Nat.toDigits 10 n ++ [' '] ++
        "results".toList ++ [']']) :=
      clean_append.2 ⟨clean_append.2 ⟨clean_append.2 ⟨clean_append.2
        ⟨hascii (by decide), hdigits⟩, hascii (by decide)⟩, hascii (by decide)⟩,
        hascii (by decide)⟩
    have hend : Clean unicode ['\n'] := hascii (by decide)
    exact clean_append.2 ⟨h.truncateToolOutputAt _, clean_append.2 ⟨hend, hmarker⟩⟩

/-- Recording changes nothing in a finished output, unless it is one line without a marker that is cut
inside a character. -/
theorem recordedContent_finishToolOutput {first : Text} {rest : List Text} {truncated : Bool}
    {n : ℕ} (hn : n ≤ 200) (hclean : ∀ line ∈ first :: rest, Clean unicode line)
    (hwhole : truncationMarker truncated n "results".toList = none →
      Utf8.CutsWhole maxToolOutputBytes first)
    (hfits : rest = [] ∨ Utf8.size (['\n'].intercalate (first :: rest)) ≤ maxToolOutputBytes) :
    recordedContent unicode (finishToolOutput (['\n'].intercalate (first :: rest))
        (truncationMarker truncated n "results".toList)) =
      finishToolOutput (['\n'].intercalate (first :: rest))
        (truncationMarker truncated n "results".toList) := by
  rw [recordedContent,
    (clean_finishToolOutput (clean_intercalate hclean)).sanitizeTranscript]
  rcases hmarker : truncationMarker truncated n "results".toList with - | marker
  · rw [finishToolOutput]
    refine truncateToolOutput_idem (hfits.elim (fun hnil => ?_) .inl)
    rw [hnil, intercalate_singleton]
    exact hwhole hmarker
  · obtain rfl := truncationMarker_eq_some hmarker
    exact truncateToolOutputAt_of_size_le (size_finishToolOutput_some hn hmarker)

variable (unicode format)

/-- The streamed chunks without the last newline are the result, which is the reported lines and
the marker, if the first line alone is within the budget; recording changes nothing in the result,
unless it is a first line without a marker that is cut inside a character; the result has the marker
exactly if the walk left a matching entry out or reported as many as it may; and the marker is always
its last line, whatever is cut before it. -/
theorem runFindWalk_truthful (entries : List WalkEntry) (maxResults : ℕ) :
    let out := runFindWalk unicode format entries maxResults
    let lines := entries.map (·.line unicode format)
    let cap := clampResults maxResults
    ((∀ line ∈ lines.head?, Utf8.size line + 1 ≤ walkBudget cap) →
      out.chunks.flatten.dropLast = Utf8.encode out.content ∧
        out.content = ['\n'].intercalate (out.results ++ out.marker.toList)) ∧
    ((out.marker = none → ∀ line ∈ lines.head?, Utf8.CutsWhole maxToolOutputBytes line) →
      recordedContent unicode out.content = out.content) ∧
    (∃ rest, lines = out.results ++ rest ∧
      (out.marker.isSome = true ↔ rest ≠ [] ∨ out.results.length = cap)) ∧
    ∀ marker ∈ out.marker, ∃ body, out.content = body ++ '\n' :: marker := by
  intro out lines cap
  have hcap : cap ≤ 200 := Nat.min_le_right _ _
  obtain ⟨hbooked, hlen, hne, rest, hrest, htruncated⟩ :=
    @FindWalk.booked_visit (walkBudget cap) cap {} lines
      ⟨rfl, rfl, .inl (Nat.zero_le _)⟩ rfl (clampResults_pos maxResults)
  rw [show ({} : FindWalk).results ++ lines = lines from rfl] at hrest
  set walk := FindWalk.visit (walkBudget cap) cap {} lines with hwalk
  have hmarker : out.marker.isSome = walk.truncated := by
    change (truncationMarker walk.truncated _ _).isSome = _
    cases walk.truncated <;> rfl
  have hclean : ∀ line ∈ walk.results, Clean unicode line := by
    intro line hline
    have hmem : line ∈ lines := hrest ▸ mem_append_left rest hline
    obtain ⟨entry, -, rfl⟩ := mem_map.1 hmem
    exact entry.clean_line
  have hchunks : out.chunks = (walk.results ++ out.marker.toList).map fun line =>
      Utf8.encode (line ++ ['\n']) := by
    rw [map_append, ← hbooked.chunks]
    rfl
  have hcontent : out.content = if walk.results = [] then [] else
      finishToolOutput (['\n'].intercalate walk.results) out.marker := rfl
  have hmarked : out.marker =
      truncationMarker walk.truncated walk.results.length "results".toList := rfl
  refine ⟨fun hfirst => ?_, fun hwhole => ?_, ⟨rest, hrest, hmarker ▸ htruncated⟩,
    fun marker hmem => ?_⟩
  · rw [hchunks, dropLast_flatten_ended]
    suffices hjoined : out.content = ['\n'].intercalate (walk.results ++ out.marker.toList) from
      ⟨by rw [hjoined], hjoined⟩
    rcases hresults : walk.results with - | ⟨first, more⟩
    · have hnone : out.marker = none := by
        rw [hmarked, truncationMarker, if_neg fun h => hne h hresults]
      rw [hcontent, if_pos hresults, hnone]
      rfl
    · have hbudget : walk.contentBytes ≤ walkBudget cap := by
        rcases hbooked.fits with hone | hfits
        · have hmore : more = [] := by simpa [hresults] using hone
          rw [hbooked.bytes, hresults, hmore]
          exact hfirst first (by simp [hrest, hresults])
        · exact hfits
      rw [hcontent, if_neg (by simp [hresults]), hmarked, hresults]
      rw [hbooked.bytes, hresults] at hbudget
      exact finishToolOutput_of_fits (hresults ▸ hlen) hbudget
  · rcases hresults : walk.results with - | ⟨first, more⟩
    · rw [hcontent, if_pos hresults]
      rfl
    · rw [hcontent, if_neg (by simp [hresults]), hmarked, hresults]
      refine recordedContent_finishToolOutput ?_ (hresults ▸ hclean) (fun hnone => ?_) ?_
      · exact (hresults ▸ hlen).trans hcap
      · exact hwhole (by rw [hmarked, hresults, hnone]) first (by simp [hrest, hresults])
      · rcases hbooked.fits with hone | hfits
        · exact .inl (by simpa [hresults] using hone)
        · have hsize := size_intercalate first more
          rw [hbooked.bytes, hresults, ← hsize] at hfits
          exact .inr ((Nat.le_of_succ_le hfits).trans (Nat.sub_le _ _))
  · have hfull : walk.truncated = true := by
      rw [← hmarker, mem_def.1 hmem]
      rfl
    rw [hcontent, if_neg (hne hfull), mem_def.1 hmem]
    exact ⟨_, rfl⟩

/-- A directory and a file are found below the cap: nothing is left out. -/
theorem runFindWalk_truthful_two :
    let entries : List WalkEntry :=
      [⟨"src".toList, .dir⟩, ⟨"src/main.rs".toList, .file (some 5)⟩]
    let out := runFindWalk .listed .bytes entries 10
    out.chunks.flatten.dropLast = Utf8.encode out.content ∧
      recordedContent .listed out.content = out.content ∧ out.marker = none ∧
      out.content = "src/\nsrc/main.rs  5 B".toList := by
  intro entries out
  have h := runFindWalk_truthful .listed .bytes entries 10
  exact ⟨(h.1 (by decide +kernel)).1, h.2.1 fun _ => by decide +kernel, by decide +kernel,
    by decide +kernel⟩

/-- The only entry is reported with the marker, when one is asked for; and a name that is cut
inside a character is cut again when the result is recorded. -/
theorem not_runFindWalk_truthful :
    (¬∀ entries maxResults, let out := runFindWalk .listed .bytes entries maxResults
      (out.marker.isSome = true ↔ out.results ≠ entries.map (·.line .listed .bytes))) ∧
    ¬∀ entries maxResults, let out := runFindWalk .listed .bytes entries maxResults
      recordedContent .listed out.content = out.content := by
  constructor
  · intro h
    exact (h [⟨"src".toList, .dir⟩] 1).1 (by decide +kernel) (by decide +kernel)
  · intro h
    have hkeeps (n : ℕ) : ∀ c ∈ 'a' :: replicate n 'é', sanitizeKeeps .listed c false = true := by
      refine forall_mem_cons.2 ⟨by decide, fun c hc => ?_⟩
      rw [eq_of_mem_replicate hc]
      decide
    have hclean (n : ℕ) : Clean .listed ('a' :: replicate n 'é') :=
      fun c hc => isNonJoinerFormatChar_of_keeps (hkeeps n c hc)
    have hcontent (name : Text) (hkept : ∀ c ∈ name, sanitizeKeeps .listed c false = true) :
        (runFindWalk .listed .bytes [⟨name, .unknown⟩] 10).content = truncateToolOutput name := by
      change finishToolOutput (['\n'].intercalate [sanitizeName .listed name]) none = _
      rw [sanitizeName_of_keeps hkept, intercalate_singleton]
      rfl
    have hcut := h [⟨'a' :: replicate 65536 'é', .unknown⟩] 10
    have hfirst := recordedContent_accents.1
    rw [recordedContent, (hclean _).sanitizeTranscript] at hfirst
    dsimp only at hcut
    rw [hcontent _ (hkeeps _), hfirst, recordedContent_accents.2, append_assoc] at hcut
    exact absurd (append_cancel_left hcut) (by decide)

end Choreo
