import ArenaCore.Lib.Escapes
import ArenaCore.Judge.Display
import ArenaCore.Store.Effects

/-!
# Output Is Sanitised Once

The judge cleans the output of a case and cuts it; the store cleans the text again
when it is sent to the console and when the result is written. Both copies of the
filter remove what `stripVTControlCharacters` removes, then the control and
bidirectional characters that are left.

Of `stripVTControlCharacters` only `StripsEscapes` is assumed. Escape characters are
control characters, so cleaned text gives neither stage anything to remove, and the
cut takes a front of cleaned text: the second pass changes nothing.

A string of the runtime is a sequence of UTF-16 units, and the filter reads units.
`String` has the well-formed ones only; `safeConsoleUnits` is the filter on all of
them, and `safeConsoleUnits_utf16` says that the two agree.

## Main definitions

* `unprintable`, `escapeStart`: The character class and the two escape characters.
* `StripsEscapes`: What is assumed of `stripVTControlCharacters`.
* `safeConsoleUnits`: `safeConsole` on any string.

## Theorems

* `safeConsole_of_front`: A front of sanitised text is left alone.
* `sanitizeResult_of_judged`: So is a result of the judge.
* `console_sanitising`: The whole of it.
-/

namespace ArenaCore

open Transaction Escapes

variable {d : Deployment} {budget left : Nat}

/-! ### The filter -/

/-- The class `[\u0000-\u0008\u000b-\u001f\u007f-\u009f\u202a-\u202e\u2066-\u2069]`. -/
def unprintable (n : Nat) : Bool :=
  n ≤ 0x08 || (0x0b ≤ n && n ≤ 0x1f) || (0x7f ≤ n && n ≤ 0x9f) || (0x202a ≤ n && n ≤ 0x202e) ||
    (0x2066 ≤ n && n ≤ 0x2069)

/-- The characters ESC and CSI. -/
def escapeStart (n : Nat) : Bool :=
  n == 0x1b || n == 0x9b

theorem unprintable_of_escapeStart {n : Nat} (h : escapeStart n = true) : unprintable n = true := by
  simp only [escapeStart, Bool.or_eq_true, beq_iff_eq] at h
  rcases h with rfl | rfl <;> decide

/-- A function on strings as one on their characters. -/
def onChars (strip : String → String) (text : List Char) : List Char :=
  (strip (String.ofList text)).toList

/-- Only sequences that begin with ESC or CSI are removed. Text without those
    characters is therefore unchanged. -/
def StripsEscapes (strip : String → String) : Prop :=
  StripsOnly (fun c : Char => escapeStart c.toNat) (onChars strip)

theorem printable_eq_clean (strip : String → String) (text : String) :
    (printable strip text).toList =
      clean (onChars strip) (fun c => unprintable c.toNat) text.toList := by
  rw [printable, String.toList_ofList, clean, onChars, String.ofList_toList]
  rfl

section

variable {d : Deployment} {text shown : String}

theorem not_unprintable_of_mem {c : Char} (hc : c ∈ (safeConsole d text).toList) :
    unprintable c.toNat = false := by
  rw [safeConsole, printable_eq_clean] at hc
  have hkept := not_dropped_of_mem_clean hc
  exact hkept

theorem cleaned_safeConsole (h : StripsEscapes d.stripVTControlCharacters) (text : String) :
    Cleaned (fun c : Char => escapeStart c.toNat) (fun c => unprintable c.toNat) text.toList
      (safeConsole d text).toList := by
  rw [safeConsole, printable_eq_clean]
  exact cleaned_clean h _

/-- A front of sanitised text is left alone, the text itself included. -/
theorem safeConsole_of_front (h : StripsEscapes d.stripVTControlCharacters)
    (hfront : shown.toList <+: (safeConsole d text).toList) : safeConsole d shown = shown := by
  rw [safeConsole, printable_eq_clean] at hfront
  apply String.toList_inj.1
  rw [safeConsole, printable_eq_clean]
  exact clean_of_front h (fun c => unprintable_of_escapeStart) hfront

end

/-! ### Units -/

/-- The UTF-16 units of a character. -/
def utf16Units (c : Char) : List UInt16 :=
  if c.toNat < 0x10000 then [c.toNat.toUInt16]
  else [(0xd800 + (c.toNat - 0x10000) / 0x400).toUInt16,
    (0xdc00 + (c.toNat - 0x10000) % 0x400).toUInt16]

/-- `safeConsole` on any string of the runtime, whose units need not pair up. -/
def safeConsoleUnits (strip : List UInt16 → List UInt16) (text : List UInt16) : List UInt16 :=
  clean strip (fun u => unprintable u.toNat) text

/-- No surrogate is in the class, and no character beyond the units is. -/
theorem filter_utf16Units (c : Char) :
    (utf16Units c).filter (fun u => !unprintable u.toNat) =
      if unprintable c.toNat then [] else utf16Units c := by
  have hvalid : c.toNat < 0x110000 := by
    have := c.valid
    simp only [UInt32.isValidChar, Nat.isValidChar] at this
    change c.val.toNat < _
    omega
  have hunit (n : Nat) (h : n < 0x10000) : n.toUInt16.toNat = n := by
    rw [Nat.toUInt16_eq, UInt16.toNat_ofNat', Nat.mod_eq_of_lt h]
  have hlarge (n : Nat) (h : 0xd800 ≤ n) : unprintable n = false := by
    simp only [unprintable, Bool.or_eq_false_iff, Bool.and_eq_false_iff, decide_eq_false_iff_not]
    omega
  unfold utf16Units
  split
  · next hsmall => cases hc : unprintable c.toNat <;> simp [hunit _ hsmall, hc]
  · next hpair =>
      rw [hlarge c.toNat (by omega), if_neg Bool.false_ne_true]
      refine List.filter_eq_self.2 fun u hu => ?_
      rcases List.mem_pair.1 hu with rfl | rfl <;>
        rw [hunit _ (by omega), hlarge _ (by omega), Bool.not_false]

theorem filter_flatMap_utf16Units (text : List Char) :
    (text.flatMap utf16Units).filter (fun u => !unprintable u.toNat) =
      (text.filter fun c => !unprintable c.toNat).flatMap utf16Units := by
  induction text with
  | nil => rfl
  | cons c rest ih =>
      rw [List.flatMap_cons, List.filter_append, ih, filter_utf16Units]
      cases hc : unprintable c.toNat <;> simp [hc]

/-- On well-formed strings the filter on units is the filter on characters. -/
theorem safeConsoleUnits_utf16 {strip : List UInt16 → List UInt16} {text : String}
    (h : strip (text.toList.flatMap utf16Units) =
      (d.stripVTControlCharacters text).toList.flatMap utf16Units) :
    safeConsoleUnits strip (text.toList.flatMap utf16Units) =
      (safeConsole d text).toList.flatMap utf16Units := by
  rw [safeConsoleUnits, clean, h, filter_flatMap_utf16Units, safeConsole, printable,
    String.toList_ofList]
  rfl

/-! ### Results of the judge -/

section

variable {d : Deployment} {budget left : Nat} {os : List ObservedCase} {rs : List PublicCaseResult}
  {t : Moment} {lease : Lease} {j j' : Job}

theorem Displayed.sanitized (h : StripsEscapes d.stripVTControlCharacters)
    (hshown : Displayed d.stripVTControlCharacters budget os rs left) :
    ∀ r ∈ rs, ∃ stdout stderr, r.stdout = some stdout ∧ r.stderr = some stderr ∧
      safeConsole d stdout = stdout ∧ safeConsole d stderr = stderr := by
  induction hshown with
  | nil _ => exact fun r hr => absurd hr List.not_mem_nil
  | cons stdout stderr showsStdout showsStderr stdoutCut _ stderrCut _ _ _ ih =>
      intro r hr
      rcases List.mem_cons.1 hr with rfl | hr
      · exact ⟨stdout, stderr, showsStdout, showsStderr, safeConsole_of_front h stdoutCut.front,
          safeConsole_of_front h stderrCut.front⟩
      · exact ih r hr

/-- The results of the judge pass the second filter unchanged. -/
theorem sanitizeResult_of_judged (h : StripsEscapes d.stripVTControlCharacters)
    (hshown : Displayed d.stripVTControlCharacters budget os rs left) :
    rs.map (JobStore.sanitizeResult d) = rs := by
  refine List.map_congr_left (fun r hr => ?_) |>.trans (List.map_id rs)
  obtain ⟨stdout, stderr, hstdout, hstderr, hout, herr⟩ := hshown.sanitized h r hr
  rw [JobStore.sanitizeResult, hstdout, hstderr, Option.map_some, Option.map_some, hout, herr,
    ← hstdout, ← hstderr]
  rfl

/-- What a finished execution stores. -/
theorem finish_publicResults {result : WorkerResult} {results : List PublicCaseResult}
    (hresults : result.publicCaseResults = some results)
    (hrequested : j.row.cancellationRequestedAt = none)
    (h : JobStore.finish d t lease result j = .ok (true, j')) :
    j'.row.publicResults = some (results.map (JobStore.sanitizeResult d)) := by
  unfold JobStore.finish at h
  simp only [hrequested, hresults, Option.isSome_none, Bool.false_eq_true, if_false] at h
  split at h
  · cases h
  split at h
  · cases h
  obtain ⟨⟨seq, j₁⟩, _, h⟩ := bind_eq_ok.1 h
  obtain ⟨j₂, _, h⟩ := bind_eq_ok.1 h
  obtain ⟨j₃, hupdate, h⟩ := bind_eq_ok.1 h
  obtain ⟨_, rfl⟩ := Job.update_eq_ok.1 hupdate
  cases h
  rfl

/-- What the console sends. -/
theorem console_journal {caseId text : String} {stream : Stream}
    (h : JobStore.console d t lease caseId stream text j = .ok (true, j')) :
    j'.journal = JobStore.nextEvent t j.row (.consoleOutput caseId stream (safeConsole d text)) ::
      j.journal := by
  unfold JobStore.console at h
  simp only [] at h
  split at h
  · cases h
  split at h
  · cases h
  obtain ⟨⟨seq, j₁⟩, hevent, h⟩ := bind_eq_ok.1 h
  obtain ⟨_, _, rfl⟩ := JobStore.event_eq_ok.1 hevent
  obtain ⟨j₂, hupdate, h⟩ := bind_eq_ok.1 h
  obtain ⟨_, rfl⟩ := Job.update_eq_ok.1 hupdate
  cases h
  rfl

end

/-- What a result shows on a stream. -/
def PublicCaseResult.shown (r : PublicCaseResult) : Stream → Option String
  | .stdout => r.stdout
  | .stderr => r.stderr

/-- The results of a run are stored and sent as they were judged: `finish` stores
    exactly them, each stream reaches the console unchanged, and the flags still say
    whether what is stored is less than the sanitised output. -/
structure KeptAsJudged (d : Deployment) (observed : JudgeObservation)
    (results : List PublicCaseResult) : Prop where
  stored : ∀ t lease result j j', result.publicCaseResults = some results →
    j.row.cancellationRequestedAt = none →
    JobStore.finish d t lease result j = .ok (true, j') → j'.row.publicResults = some results
  sent : ∀ r ∈ results, ∀ stream text, r.shown stream = some text → ∀ t lease j j',
    JobStore.console d t lease r.caseId stream text j = .ok (true, j') →
    j'.journal = JobStore.nextEvent t j.row (.consoleOutput r.caseId stream text) :: j.journal
  flags : List.Forall₂ (fun o r => ∃ stdout stderr,
    r.shown .stdout = some stdout ∧ r.shown .stderr = some stderr ∧
      (r.outputTruncated = some true ↔
        stdout ≠ safeConsole d o.stdout ∨ stderr ≠ safeConsole d o.stderr) ∧
      (r.outputTruncated = none ↔
        stdout = safeConsole d o.stdout ∧ stderr = safeConsole d o.stderr)) observed.cases results

theorem Displayed.flags {os : List ObservedCase} {rs : List PublicCaseResult}
    (h : Displayed d.stripVTControlCharacters budget os rs left) :
    List.Forall₂ (fun o r => ∃ stdout stderr,
      r.shown .stdout = some stdout ∧ r.shown .stderr = some stderr ∧
        (r.outputTruncated = some true ↔
          stdout ≠ safeConsole d o.stdout ∨ stderr ≠ safeConsole d o.stderr) ∧
        (r.outputTruncated = none ↔
          stdout = safeConsole d o.stdout ∧ stderr = safeConsole d o.stderr)) os rs := by
  induction h with
  | nil _ => exact .nil
  | @cons _ _ _ _ o r _ _ stdout stderr showsStdout showsStderr _ _ _ _ truncated _ ih =>
      refine .cons ⟨stdout, stderr, showsStdout, showsStderr, ?_⟩ ih
      rw [truncated, safeConsole, safeConsole, ArenaCore.sanitized, ArenaCore.sanitized]
      split
      · next hcut =>
          refine ⟨⟨fun _ => hcut, fun _ => rfl⟩, ⟨fun h => ?_, fun h => by simp [h] at hcut⟩⟩
          cases h
      · next hwhole =>
          rw [not_or, not_not, not_not] at hwhole
          refine ⟨⟨fun h => ?_, fun h => by simp [hwhole] at h⟩, ⟨fun _ => hwhole, fun _ => rfl⟩⟩
          cases h

theorem keptAsJudged {observed : JudgeObservation} {results : List PublicCaseResult}
    (h : StripsEscapes d.stripVTControlCharacters)
    (hshown : Displayed d.stripVTControlCharacters budget observed.cases results left) :
    KeptAsJudged d observed results where
  stored t lease result j j' hresults hrequested hfinish := by
    rw [finish_publicResults hresults hrequested hfinish, sanitizeResult_of_judged h hshown]
  sent r hr stream text htext t lease j j' hconsole := by
    obtain ⟨stdout, stderr, hstdout, hstderr, hout, herr⟩ := hshown.sanitized h r hr
    have hsame : safeConsole d text = text := by
      cases stream with
      | stdout =>
          rw [PublicCaseResult.shown, hstdout] at htext
          cases htext
          exact hout
      | stderr =>
          rw [PublicCaseResult.shown, hstderr] at htext
          cases htext
          exact herr
    rw [console_journal hconsole, hsame]
  flags := hshown.flags

/-- Sanitising leaves no character of the class, takes out nothing else but escape
    sequences, and is stable, on strings of any units; the judge cleans in the same
    way; and what it returns is stored and sent as it is. -/
theorem console_sanitising (d : Deployment) (hstrip : StripsEscapes d.stripVTControlCharacters)
    (strip : List UInt16 → List UInt16)
    (hunits : StripsOnly (fun u : UInt16 => escapeStart u.toNat) strip) :
    (∀ text : String,
      (∀ c ∈ (safeConsole d text).toList, unprintable c.toNat = false) ∧
      Cleaned (fun c : Char => escapeStart c.toNat) (fun c => unprintable c.toNat) text.toList
        (safeConsole d text).toList ∧
      safeConsole d (safeConsole d text) = safeConsole d text ∧
      ∀ bytes, LongestFront (safeConsole d text) bytes
        (display d.stripVTControlCharacters text bytes)) ∧
    (∀ text : List UInt16,
      (∀ u ∈ safeConsoleUnits strip text, unprintable u.toNat = false) ∧
      Cleaned (fun u : UInt16 => escapeStart u.toNat) (fun u => unprintable u.toNat) text
        (safeConsoleUnits strip text) ∧
      safeConsoleUnits strip (safeConsoleUnits strip text) = safeConsoleUnits strip text) ∧
    ∀ (plan : JudgePlan) (mode : ExecutionMode) (language : Language)
      (input : Option JudgeObservation) (result : WorkerResult) (results : List PublicCaseResult),
      judge d.stripVTControlCharacters plan mode language input = .ok result →
      result.publicCaseResults = some results →
      ∃ observed, input = some observed ∧ KeptAsJudged d observed results := by
  refine ⟨fun text => ⟨fun _ => not_unprintable_of_mem, cleaned_safeConsole hstrip text,
    safeConsole_of_front hstrip (List.prefix_refl _), display_longestFront _ text⟩,
    fun text => ⟨fun _ => not_dropped_of_mem_clean, cleaned_clean hunits text,
    clean_clean hunits (fun u => unprintable_of_escapeStart) text⟩, ?_⟩
  intro plan mode language input result results hjudge hresults
  cases mode with
  | submit =>
      rw [judge_submit_private hjudge] at hresults
      cases hresults
  | run =>
      obtain ⟨selected, hselect, hrun⟩ := bind_eq_ok.1 hjudge
      obtain ⟨observed, rfl, _⟩ := judgeSelected_result hrun
      refine ⟨observed, rfl, ?_⟩
      obtain ⟨_, _, ⟨_, _, rfl⟩ | ⟨_, _, left, hshown, hdisplayed, _⟩⟩ := run_result hjudge
      · cases hresults
      · rw [hshown] at hresults
        cases hresults
        exact keptAsJudged hstrip hdisplayed

namespace Sample

/-- Only colours are stripped. -/
def stripColours : List Char → List Char
  | '\x1b' :: '[' :: _ :: _ :: 'm' :: rest => stripColours rest
  | c :: rest => c :: stripColours rest
  | [] => []

def colouring : Deployment :=
  { deployment with
    stripVTControlCharacters := fun text => String.ofList (stripColours text.toList) }

theorem stripsEscapes_colouring : StripsEscapes colouring.stripVTControlCharacters := by
  intro text
  rw [onChars, colouring, String.toList_ofList, String.toList_ofList]
  fun_induction stripColours text with
  | case1 tens ones rest ih => exact .escape rfl ['[', tens, ones, 'm'] ih
  | case2 c rest _ ih => exact .keep rfl ih
  | case3 => exact .nil

/-- A red answer with a bell. -/
def bell : JudgeObservation := runObservation "\x1b[31m3\x07\n"

/-- The store when the worker has claimed the run. -/
def colouringStore : Store := Store.run colouring [created .run, claimed]

end Sample

/-- The output of the public case is cleaned, and stored as it is shown when the run of it
    is finished. -/
theorem console_sanitising_sample :
    ∃ result results j j', judge Sample.colouring.stripVTControlCharacters Sample.plan .run .python
        (some Sample.bell) = .ok result ∧ result.publicCaseResults = some results ∧
      results.map PublicCaseResult.stdout = [some "3\n"] ∧
      Sample.colouringStore.jobs.lookup Sample.execution = some j ∧
      JobStore.finish Sample.colouring ⟨1020, 1020, 1020, fun _ => true⟩ Sample.lease result j =
        .ok (true, j') ∧ j'.row.publicResults = some results := by
  obtain ⟨result, hresult, results, hresults, hstdout⟩ : ∃ result,
      judge Sample.colouring.stripVTControlCharacters Sample.plan .run .python (some Sample.bell) =
        .ok result ∧ ∃ results, result.publicCaseResults = some results ∧
          results.map PublicCaseResult.stdout = [some "3\n"] :=
    ⟨_, rfl, _, rfl, by decide +kernel⟩
  obtain ⟨j, hj, hrequested, j', hfinish⟩ : ∃ j,
      Sample.colouringStore.jobs.lookup Sample.execution = some j ∧
        j.row.cancellationRequestedAt = none ∧ ∃ j', JobStore.finish Sample.colouring
        ⟨1020, 1020, 1020, fun _ => true⟩ Sample.lease result j = .ok (true, j') := by
    have hrun : (Sample.colouringStore.jobs.lookup Sample.execution).any (fun j =>
        j.row.cancellationRequestedAt.isNone && (JobStore.finish Sample.colouring
          ⟨1020, 1020, 1020, fun _ => true⟩ Sample.lease result j).toOption.any Prod.fst) =
            true := by
      cases hresult
      decide +kernel
    obtain ⟨j, hj, hrun⟩ := (Option.any_eq_true _ _).1 hrun
    rw [Bool.and_eq_true, Option.isNone_iff_eq_none] at hrun
    obtain ⟨⟨_, j'⟩, hfinish, rfl⟩ := (Option.any_eq_true _ _).1 hrun.2
    refine ⟨j, hj, hrun.1, j', ?_⟩
    revert hfinish
    cases JobStore.finish Sample.colouring ⟨1020, 1020, 1020, fun _ => true⟩ Sample.lease result j
    · exact nofun
    · exact fun h => congrArg Except.ok (Option.some.inj h)
  obtain ⟨observed, _, hkept⟩ := (console_sanitising Sample.colouring
    Sample.stripsEscapes_colouring id stripsOnly_id).2.2 _ _ _ _ _ _ hresult hresults
  exact ⟨result, results, j, j', hresult, hresults, hstdout, hj, hfinish,
    hkept.stored _ _ _ _ _ hresults hrequested hfinish⟩

end ArenaCore
