import ArenaCore.Lib.Transaction
import ArenaCore.Runner.Policy
import ArenaCore.Runner.Transport

/-!
# Compiler Artifacts

`apps/runner/src/artifacts.ts`: archives are built from files, and the archive
a compiler left behind is taken apart and built anew from nothing but class
files under plain names.

The tar format itself is the business of a library: a `Library` has its reader
and writer, and the other functions of the platform the runner relies on.

## Main definitions

* `RunnerError`: What the runner throws.
* `TarEntry`, `Library`: What the platform provides.
* `packFiles`: An archive of some files.
* `isClassPath`, `isDirectoryPath`: The names an archive may contain.
* `normalizeJavaArtifacts`: The archive of a compiler, built anew.

## Theorems

* `artifacts_exact`: Which archives are normalised, and to what.
-/

namespace ArenaCore

inductive RunnerError where
  | docker (code : DockerCode)
  /-- `SandboxCleanupError`. -/
  | cleanup
  /-- A schema's exception. -/
  | schema
  /-- `JSON.parse` failed. -/
  | syntaxError
  | thrown (message : String)
deriving DecidableEq, Repr

inductive TarEntryType where
  | file
  | directory
  | other
deriving DecidableEq, Repr

structure TarEntry where
  name : String
  type : TarEntryType
  size : Option Nat
  data : Bytes
deriving DecidableEq

/-- The functions of the platform. -/
structure Library where
  /-- `tar.pack`, fed with files. -/
  pack : List (String × Bytes) → Bytes
  /-- `tar.extract`, or none if the archive is malformed. -/
  extract : Bytes → Option (List TarEntry)
  /-- `Buffer.toString`. -/
  decode : Bytes → String
  /-- `JSON.parse`. -/
  parseJson : String → Option Json

/-- `Buffer.from`. -/
def encode (s : String) : Bytes :=
  s.toUTF8.data.toList

def packFiles (lib : Library) (files : List (String × Bytes)) : Except RunnerError Bytes :=
  if Caps.artifactBytes < (lib.pack files).length then .error (.thrown "ARTIFACT_LIMIT")
  else .ok (lib.pack files)

/-! ### Names -/

def isIdentifierStart (c : Char) : Bool :=
  ('A' ≤ c && c ≤ 'Z') || ('a' ≤ c && c ≤ 'z') || c == '_' || c == '$'

/-- The pattern `[A-Za-z_$][A-Za-z0-9_$]*`. -/
def isJavaIdentifier : List Char → Bool
  | [] => false
  | first :: rest =>
      isIdentifierStart first && rest.all fun c => isIdentifierStart c || ('0' ≤ c && c ≤ '9')

/-- An identifier with the ending `.class`. -/
def isClassFileName (name : List Char) : Bool :=
  ".class".toList.isSuffixOf name && isJavaIdentifier (name.take (name.length - 6))

/-- Identifiers that lead to a class file. -/
def isClassPath (name : String) : Bool :=
  match (name.toList.splitOn '/').reverse with
  | [] => false
  | last :: directories => isClassFileName last && directories.all isJavaIdentifier

/-- Identifiers that all end in a slash, at least one. -/
def isDirectoryPath (name : String) : Bool :=
  match (name.toList.splitOn '/').reverse with
  | [] :: last :: directories => (last :: directories).all isJavaIdentifier
  | _ => false

/-- One `./` at the front is dropped. -/
def entryName (name : String) : String :=
  match name.toList with
  | '.' :: '/' :: rest => String.ofList rest
  | _ => name

/-! ### Normalising -/

/-- Whether an entry is a directory that is passed over. -/
def isPassedOver (entry : TarEntry) : Bool :=
  entry.type == .directory &&
    (entryName entry.name == "" || entryName entry.name == "." ||
      isDirectoryPath (entryName entry.name))

/-- Whether an entry is a class file that may follow the given ones. -/
def isClassEntry (files : List (String × Bytes)) (entry : TarEntry) : Bool :=
  entry.type == .file && isClassPath (entryName entry.name) &&
    !(files.map Prod.fst).contains (entryName entry.name) &&
    entry.size.any (fun size => decide (size ≤ Caps.maxFileBytes)) &&
    decide (files.length < Caps.artifactFiles)

/-- One entry of an archive, after the files that were taken from it. -/
def takeEntry (files : List (String × Bytes)) (entry : TarEntry) :
    Except RunnerError (List (String × Bytes)) :=
  if isPassedOver entry then .ok files
  else if isClassEntry files entry = false then .error (.thrown "INVALID_ARTIFACT_ARCHIVE")
  else if Caps.artifactBytes < (files.map fun f => f.2.length).sum + entry.data.length then
    .error (.thrown "INVALID_ARTIFACT_ARCHIVE")
  else .ok (files ++ [(entryName entry.name, entry.data)])

def normalizeJavaArtifacts (lib : Library) (bytes : Bytes) : Except RunnerError Bytes :=
  if Caps.artifactBytes < bytes.length then .error (.thrown "ARTIFACT_LIMIT")
  else
    match lib.extract bytes with
    | none => .error (.thrown "INVALID_ARTIFACT_ARCHIVE")
    | some entries =>
        match entries.foldlM takeEntry [] with
        | .error e => .error e
        | .ok files =>
            if (files.map Prod.fst).contains "Solution.class" = false then
              .error (.thrown "MISSING_ENTRYPOINT")
            else packFiles lib files

/-! ### Exactness -/

/-- An entry for a class file, apart from the entries before it. -/
def TarEntry.isClassFile (entry : TarEntry) : Bool :=
  entry.type == .file && isClassPath (entryName entry.name) &&
    entry.size.any fun size => decide (size ≤ Caps.maxFileBytes)

/-- The files of an archive under their plain names. -/
def classFiles (entries : List TarEntry) : List (String × Bytes) :=
  (entries.filter fun entry => !isPassedOver entry).map fun entry =>
    (entryName entry.name, entry.data)

structure Bounded (files : List (String × Bytes)) : Prop where
  distinct : (files.map Prod.fst).Nodup
  count : files.length ≤ Caps.artifactFiles
  bytes : (files.map fun f => f.2.length).sum ≤ Caps.artifactBytes

/-- The entry `packFiles` writes for a file. -/
def packedEntry (file : String × Bytes) : TarEntry :=
  ⟨file.1, .file, some file.2.length, file.2⟩

section

variable {lib : Library} {files more result : List (String × Bytes)} {entries : List TarEntry}
  {bytes out : Bytes}

theorem Bounded.left (h : Bounded (files ++ more)) : Bounded files := by
  obtain ⟨hdistinct, hcount, hbytes⟩ := h
  rw [List.map_append] at hdistinct hbytes
  rw [List.length_append] at hcount
  rw [List.sum_append] at hbytes
  exact ⟨(List.nodup_append.1 hdistinct).1, by omega, by omega⟩

theorem bounded_concat (h : Bounded files) (file : String × Bytes) :
    Bounded (files ++ [file]) ↔ file.1 ∉ files.map Prod.fst ∧ files.length < Caps.artifactFiles ∧
      (files.map fun f => f.2.length).sum + file.2.length ≤ Caps.artifactBytes := by
  have hdistinct : ((files ++ [file]).map Prod.fst).Nodup ↔ file.1 ∉ files.map Prod.fst := by
    rw [((List.perm_append_singleton file files).map _).nodup_iff, List.map_cons, List.nodup_cons,
      and_iff_left h.distinct]
  have hlength : (files ++ [file]).length = files.length + 1 := List.length_append
  constructor
  · rintro ⟨hnew, hcount, hbytes⟩
    exact ⟨hdistinct.1 hnew, by omega, by simpa using hbytes⟩
  · rintro ⟨hnew, hcount, hbytes⟩
    exact ⟨hdistinct.2 hnew, by omega, by simpa using hbytes⟩

/-- One entry: the checks let pass what keeps the files bounded. -/
theorem takeEntry_eq_ok (h : Bounded files) {entry : TarEntry} :
    takeEntry files entry = .ok result ↔ result = files ++ classFiles [entry] ∧
      (isPassedOver entry = true ∨ entry.isClassFile = true) ∧ Bounded result := by
  have hconcat := bounded_concat h (entryName entry.name, entry.data)
  have hclass : isClassEntry files entry = true ↔ entry.isClassFile = true ∧
      entryName entry.name ∉ files.map Prod.fst ∧ files.length < Caps.artifactFiles := by
    simp only [isClassEntry, TarEntry.isClassFile, Bool.and_eq_true, Bool.not_eq_true',
      decide_eq_true_eq, List.contains_eq_mem, decide_eq_false_iff_not]
    tauto
  unfold takeEntry classFiles
  cases hpassed : isPassedOver entry with
  | true => grind
  | false => grind

theorem takeEntries_eq_ok (h : Bounded files) :
    entries.foldlM takeEntry files = .ok result ↔ result = files ++ classFiles entries ∧
      (∀ entry ∈ entries, isPassedOver entry = true ∨ entry.isClassFile = true) ∧
      Bounded result := by
  induction entries generalizing files with
  | nil =>
      rw [List.foldlM_nil, classFiles, List.filter_nil, List.map_nil, List.append_nil]
      exact ⟨fun heq => by cases heq; exact ⟨rfl, nofun, h⟩, fun heq => heq.1 ▸ rfl⟩
  | cons entry rest ih =>
      have hcons : classFiles (entry :: rest) = classFiles [entry] ++ classFiles rest := by
        unfold classFiles
        rw [← List.map_append, ← List.filter_append, List.singleton_append]
      rw [List.foldlM_cons, hcons, List.forall_mem_cons, ← List.append_assoc]
      constructor
      · intro hok
        obtain ⟨next, hnext, hrest⟩ := Transaction.bind_eq_ok.1 hok
        obtain ⟨rfl, hentry, hbounded⟩ := (takeEntry_eq_ok h).1 hnext
        obtain ⟨rfl, hall, hresult⟩ := (ih hbounded).1 hrest
        exact ⟨rfl, ⟨hentry, hall⟩, hresult⟩
      · rintro ⟨rfl, ⟨hentry, hall⟩, hresult⟩
        exact Transaction.bind_eq_ok.2 ⟨_, (takeEntry_eq_ok h).2 ⟨rfl, hentry, hresult.left⟩,
          (ih hresult.left).2 ⟨rfl, hall, hresult⟩⟩

/-- The archive is small and well formed, all its entries are directories or class files
    under plain names, and another one has exactly these files. -/
def Normalises (lib : Library) (bytes out : Bytes) : Prop :=
  bytes.length ≤ Caps.artifactBytes ∧ ∃ entries, lib.extract bytes = some entries ∧
    (∀ entry ∈ entries, isPassedOver entry = true ∨ entry.isClassFile = true) ∧
    Bounded (classFiles entries) ∧ "Solution.class" ∈ (classFiles entries).map Prod.fst ∧
    out = lib.pack (classFiles entries) ∧ out.length ≤ Caps.artifactBytes

theorem normalizeJavaArtifacts_eq_ok :
    normalizeJavaArtifacts lib bytes = .ok out ↔ Normalises lib bytes out := by
  unfold Normalises
  unfold normalizeJavaArtifacts packFiles
  cases lib.extract bytes with
  | none => grind
  | some entries =>
      have hfold (files : List (String × Bytes)) : entries.foldlM takeEntry [] = .ok files ↔ _ :=
        takeEntries_eq_ok ⟨List.nodup_nil, Nat.zero_le _, Nat.zero_le _⟩
      have hfiles := hfold (classFiles entries)
      cases entries.foldlM takeEntry [] <;> grind

/-- A class path starts with an identifier, so nothing is dropped from it. -/
theorem entryName_of_isClassPath {name : String} (h : isClassPath name = true) :
    entryName name = name := by
  unfold entryName
  split
  · next rest hname =>
      have hpiece : ['.'] ∈ (name.toList.splitOn '/').reverse := by
        simp [hname, List.splitOn, List.splitOnP_cons_eq_if_modifyHead]
      unfold isClassPath at h
      split at h
      · cases h
      · next last directories hpieces =>
          rw [hpieces, List.mem_cons] at hpiece
          rw [Bool.and_eq_true, List.all_eq_true] at h
          rcases hpiece with rfl | hmem
          · exact absurd h.1 (by decide)
          · exact absurd (h.2 _ hmem) (by decide)
  · rfl

end

namespace Sample

/-- A format that only knows one class. -/
def oneClass : Library where
  pack files := if files = [("Solution.class", [])] then [0] else []
  extract bytes :=
    some [⟨if bytes = [0] then "Solution.class" else "./Solution.class", .file, some 0, []⟩]
  decode _ := ""
  parseJson _ := none

end Sample

end ArenaCore
