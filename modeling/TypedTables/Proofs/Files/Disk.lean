import Mathlib.Data.List.Induction
import Mathlib.Data.Set.Basic
import Mathlib.Logic.Function.Basic
import Mathlib.Tactic.Common
import TypedTables.Files.Path
import TypedTables.Generation.Writing
import TypedTables.Proofs.Except
/-!
# TypedTables — files on a disk

A disk is a map from routes to bytes, and two paths with one route are one file
there. What is written is said of all files together.
-/

namespace TypedTables

/-! ## Routes of paths

Two paths lead to the same file if they start at the same place and take the
same steps. What a path ends in is a matter of its route, and a file of a
folder is called there as it is called in the folder. -/

namespace Path

/-- Where a path leads, whatever it is written like. -/
structure Route where
  /-- Whether it starts at the root. -/
  isAbsolute : Bool
  /-- Its pieces, but for those that lead nowhere. -/
  steps : List String
deriving Repr, DecidableEq

/-- The route of a path. -/
def Route.of (path : String) : Route := ⟨Path.isAbsolute path, (pieces path).filter isStep⟩

variable {p q folder name : String} {taken cs ds : List Char}

/-- The name that a path ends in is read off its route. -/
theorem fileName?_of_route (h : Route.of p = Route.of q) : fileName? p = fileName? q := by
  have hsteps : (pieces p).filter isStep = (pieces q).filter isStep := congrArg Route.steps h
  rw [fileName?, fileName?, hsteps]

theorem extension?_of_route (h : Route.of p = Route.of q) : extension? p = extension? q := by
  rw [extension?, extension?, fileName?_of_route h]

/-! ### Pieces -/

/-- Each slash is between two pieces. -/
theorem piecesFrom_append (taken cs ds : List Char) :
    piecesFrom taken (cs ++ '/' :: ds) = piecesFrom taken cs ++ piecesFrom [] ds := by
  induction cs generalizing taken with
  | nil => rfl
  | cons c cs ih =>
    rw [List.cons_append, piecesFrom, piecesFrom]
    split
    · rw [ih, List.cons_append]
    · exact ih _

theorem piecesFrom_of_notMem (h : '/' ∉ cs) : piecesFrom taken cs = [String.ofList (taken.reverse ++ cs)] := by
  induction cs generalizing taken with
  | nil => rw [piecesFrom, List.append_nil]
  | cons c cs ih =>
    obtain ⟨hc, hcs⟩ := not_or.1 (List.mem_cons.not.1 h)
    rw [piecesFrom, if_neg (Ne.symm hc), ih hcs, List.reverse_cons, List.append_assoc]
    rfl

/-- **A file of a folder is the last piece of its path**, however the folder is
written. -/
theorem exists_pieces_join (folder : String) (hslash : '/' ∉ name.toList) :
    ∃ before, pieces (join folder name) = before ++ [name] := by
  have hname : piecesFrom [] name.toList = [name] := by
    rw [piecesFrom_of_notMem hslash, List.reverse_nil, List.nil_append, String.ofList_toList]
  have hrelative : isAbsolute name = false := by
    refine beq_eq_false_iff_ne.2 fun habs => hslash ?_
    exact List.mem_of_mem_head? (by rw [habs]; rfl)
  rw [join, hrelative, Bool.false_or]
  split
  · exact ⟨[], hname⟩
  split
  case isTrue hends =>
    obtain ⟨cs, hcs⟩ : ∃ cs, folder.toList = cs ++ ['/'] :=
      List.getLast?_eq_some_iff.1 (by simpa using hends)
    refine ⟨piecesFrom [] cs, ?_⟩
    rw [pieces, String.toList_append, hcs, List.append_assoc, List.singleton_append, piecesFrom_append, hname]
  case isFalse =>
    refine ⟨pieces folder, ?_⟩
    rw [pieces, String.toList_append, String.toList_append, List.append_assoc]
    exact (piecesFrom_append _ _ _).trans (congrArg _ hname)

/-- **A file of a folder has its own name there.** -/
theorem fileName?_join (hslash : '/' ∉ name.toList) (hstep : isStep name = true) (hup : name ≠ "..") :
    fileName? (join folder name) = some name := by
  obtain ⟨before, hpieces⟩ := exists_pieces_join folder hslash
  have hlast : ((pieces (join folder name)).filter isStep).getLast? = some name := by
    rw [hpieces, List.filter_append, List.filter_cons_of_pos hstep, List.filter_nil, List.getLast?_concat]
  rw [fileName?, hlast]
  exact if_neg (by simpa using hup)

end Path

/-! ## Files written to a disk

A disk is a map from routes to bytes on which nothing fails but the reading of
what is not there or is no text. Files are written to it one after the other,
so that one may be read where another one was just written: what is on the disk
in the end, and which files were left alone, is said of the list as a whole. -/

/-- The files of a disk, and the folders that were made. -/
structure Disk where
  file? : Path.Route → Option ByteArray
  folders : Set Path.Route

/-- The folders that a route leads through, itself included. -/
def Path.Route.upTo (r : Path.Route) : Set Path.Route := {q | q.isAbsolute = r.isAbsolute ∧ q.steps <+: r.steps}

namespace Disk

/-- The text of a file, if there is one and it is text. -/
def readText (s : Disk) (path : String) : Except FileFault String :=
  match s.file? (.of path) with
  | none => .error .notFound
  | some bytes =>
    match String.fromUTF8? bytes with
    | some text => .ok text
    | none => .error (.other "stream did not contain valid UTF-8")

/-- Puts bytes where a route leads. -/
def put (s : Disk) (r : Path.Route) (bytes : ByteArray) : Disk :=
  { s with file? := Function.update s.file? r (some bytes) }

/-- Makes the folders of a route. -/
def makeFolders (s : Disk) (r : Path.Route) : Disk := { s with folders := s.folders ∪ r.upTo }

instance : Files (StateM Disk) where
  readText path := fun s => (s.readText path, s)
  writeText path text := fun s => (.ok (), s.put (.of path) text.toUTF8)
  createFolders path := fun s => (.ok (), s.makeFolders (.of path))

variable {s : Disk} {r : Path.Route} {bytes : ByteArray} {path text : String}

/-- Bytes that are there already make no difference. -/
theorem put_eq_self (h : s.file? r = some bytes) : s.put r bytes = s := by
  rw [put, ← h, Function.update_eq_self]

/-- Bytes that are a text are the bytes of that text. -/
theorem fromUTF8?_eq_some_iff : String.fromUTF8? bytes = some text ↔ bytes = text.toUTF8 := by
  unfold String.fromUTF8?
  split
  · rw [Option.some_inj]
    constructor <;> rintro rfl <;> rfl
  case isFalse hinvalid =>
    refine ⟨nofun, ?_⟩
    rintro rfl
    exact absurd text.isValidUTF8 hinvalid

/-- A text is read where its bytes are. -/
theorem readText_eq_ok_iff : s.readText path = .ok text ↔ s.file? (.of path) = some text.toUTF8 := by
  unfold readText
  rcases s.file? (.of path) with _ | bytes
  · simp
  · rcases htext : String.fromUTF8? bytes with _ | read
    · have hne : bytes ≠ text.toUTF8 := fun h => by simp [fromUTF8?_eq_some_iff.2 h] at htext
      simpa only [htext, Option.some_inj, reduceCtorEq, false_iff] using hne
    · obtain rfl := fromUTF8?_eq_some_iff.1 htext
      simp only [htext, Option.some_inj, Except.ok.injEq]
      exact String.toByteArray_inj.symm

end Disk

namespace SourceFile

variable {folder : String} {f : SourceFile} {files : List SourceFile} {report : WriteReport} {s : Disk}

/-- Where a file goes. -/
def pathIn (folder : String) (f : SourceFile) : String := Path.join folder f.name

/-- The route of the path where a file goes. -/
def routeIn (folder : String) (f : SourceFile) : Path.Route := .of (f.pathIn folder)

/-- Whether the contents of a file are where it goes. -/
def isHeld (folder : String) (file? : Path.Route → Option ByteArray) (f : SourceFile) : Bool :=
  (file? (f.routeIn folder)).any fun bytes => bytes.data == f.contents.toUTF8.data

theorem isHeld_iff {file? : Path.Route → Option ByteArray} :
    f.isHeld folder file? = true ↔ file? (f.routeIn folder) = some f.contents.toUTF8 := by
  rw [isHeld]
  rcases file? (f.routeIn folder) with _ | bytes
  · simp
  · rw [Option.any_some, beq_iff_eq, Option.some_inj, ByteArray.ext_iff]

/-- **What is where, once files have been written**: the contents of the last one
that goes there, or what was there before. -/
def laid (folder : String) (file? : Path.Route → Option ByteArray) (files : List SourceFile) (r : Path.Route) :
    Option ByteArray :=
  match files.findRev? fun f => f.routeIn folder = r with
  | some f => some f.contents.toUTF8
  | none => file? r

/-- Each file, and what was where when it was its turn. -/
def turns (folder : String) (file? : Path.Route → Option ByteArray) (files : List SourceFile) :
    List (SourceFile × (Path.Route → Option ByteArray)) :=
  files.zipIdx.map fun (f, i) => (f, laid folder file? (files.take i))

/-- The report of files that are written: those whose contents were not where
they go when it was their turn, and those whose contents were. -/
def reportOf (folder : String) (file? : Path.Route → Option ByteArray) (files : List SourceFile) : WriteReport where
  written :=
    ((turns folder file? files).filter fun (f, held) => !f.isHeld folder held).map fun (f, _) => f.pathIn folder
  unchanged :=
    ((turns folder file? files).filter fun (f, held) => f.isHeld folder held).map fun (f, _) => f.pathIn folder

/-! ### One file after the other -/

theorem laid_concat (folder : String) (file? : Path.Route → Option ByteArray) (files : List SourceFile)
    (f : SourceFile) : laid folder file? (files ++ [f]) =
      Function.update (laid folder file? files) (f.routeIn folder) (some f.contents.toUTF8) := by
  funext r
  by_cases hr : f.routeIn folder = r
  · subst hr
    simp [laid]
  · simp [laid, hr, Function.update_of_ne (Ne.symm hr)]

theorem turns_concat (folder : String) (file? : Path.Route → Option ByteArray) (files : List SourceFile)
    (f : SourceFile) : turns folder file? (files ++ [f]) =
      turns folder file? files ++ [(f, laid folder file? files)] := by
  have hbefore : ∀ e ∈ files.zipIdx, (files ++ [f]).take e.2 = files.take e.2 := fun e he =>
    List.take_append_of_le_length (Nat.le_of_lt (List.snd_lt_of_mem_zipIdx he))
  rw [turns, List.zipIdx_append, List.map_append, turns]
  congr 1
  · exact List.map_congr_left fun e he => by simp only [hbefore e he]
  · simp

/-- A file is in the report as it was on its turn. -/
theorem reportOf_concat (folder : String) (file? : Path.Route → Option ByteArray) (files : List SourceFile)
    (f : SourceFile) : reportOf folder file? (files ++ [f]) =
      if f.isHeld folder (laid folder file? files) then
        { reportOf folder file? files with
          unchanged := (reportOf folder file? files).unchanged ++ [f.pathIn folder] }
      else
        { reportOf folder file? files with
          written := (reportOf folder file? files).written ++ [f.pathIn folder] } := by
  split
  case isTrue hheld => simp [reportOf, turns_concat, List.filter_append, hheld]
  case isFalse hheld => simp [reportOf, turns_concat, List.filter_append, hheld]

/-- Every file is in the report once. -/
theorem perm_reportOf (folder : String) (file? : Path.Route → Option ByteArray) (files : List SourceFile) :
    ((reportOf folder file? files).written ++ (reportOf folder file? files).unchanged).Perm
      (files.map (·.pathIn folder)) := by
  have hall : files.map (·.pathIn folder) = (turns folder file? files).map fun (f, _) => f.pathIn folder := by
    rw [turns, List.map_map]
    conv_lhs => rw [← List.zipIdx_map_fst 0 files, List.map_map]
    rfl
  rw [hall, reportOf, ← List.map_append]
  refine List.Perm.map _ (List.perm_append_comm.trans ?_)
  exact List.filter_append_perm _ _

/-- **Writing one file**: afterwards it is there, whether it was there before or
not. -/
theorem run_write : (f.write (m := StateM Disk) folder report).run s =
    (.ok (if f.isHeld folder s.file? then { report with unchanged := report.unchanged ++ [f.pathIn folder] }
      else { report with written := report.written ++ [f.pathIn folder] }),
      s.put (f.routeIn folder) f.contents.toUTF8) := by
  have hcurrent : f.isCurrent (s.readText (f.pathIn folder)) = f.isHeld folder s.file? := by
    rw [Bool.eq_iff_iff, isHeld_iff, routeIn, ← Disk.readText_eq_ok_iff]
    rcases s.readText (f.pathIn folder) with fault | text <;> simp [isCurrent]
  have hrun : (f.write (m := StateM Disk) folder report).run s =
      (if f.isCurrent (s.readText (f.pathIn folder)) then
        pure { report with unchanged := report.unchanged ++ [f.pathIn folder] }
      else do
        GenerationT.onFiles (Files.writeText (f.pathIn folder) f.contents)
        return { report with written := report.written ++ [f.pathIn folder] } :
        GenerationT (StateM Disk) WriteReport).run s := rfl
  rw [hrun, hcurrent]
  split
  case isTrue hheld =>
    -- nothing is written, but what would be written is there
    rw [Disk.put_eq_self (isHeld_iff.1 hheld)]
    rfl
  case isFalse => rfl

theorem writeFrom_concat (folder : String) (report : WriteReport) (files : List SourceFile) (f : SourceFile) :
    (writeFrom (m := StateM Disk) folder report (files ++ [f])) =
      writeFrom folder report files >>= fun report => f.write folder report := by
  induction files generalizing report with
  | nil => simp [writeFrom]
  | cons g files ih => simp [writeFrom, ih]

/-- **Writing files one after the other**, by induction from the last one. -/
theorem run_writeFrom (folder : String) (s : Disk) (files : List SourceFile) :
    (writeFrom (m := StateM Disk) folder {} files).run s =
      (.ok (reportOf folder s.file? files), { s with file? := laid folder s.file? files }) := by
  induction files using List.reverseRecOn with
  | nil => rfl
  | append_singleton files f ih =>
    have hbind : (writeFrom (m := StateM Disk) folder {} (files ++ [f])).run s =
        (f.write (m := StateM Disk) folder (reportOf folder s.file? files)).run
          { s with file? := laid folder s.file? files } := by
      rw [writeFrom_concat, run_bind_state, ih]
    rw [hbind, run_write, reportOf_concat, laid_concat]
    rfl

/-- **Writing files to a folder.** -/
theorem run_writeAll (folder : String) (s : Disk) (files : List SourceFile) :
    (writeAll (m := StateM Disk) folder files).run s =
      (.ok (reportOf folder s.file? files),
        { file? := laid folder s.file? files, folders := s.folders ∪ (Path.Route.of folder).upTo }) :=
  run_writeFrom folder (s.makeFolders (.of folder)) files

/-- What is not among the files stays as it was. -/
theorem laid_of_notMem {file? : Path.Route → Option ByteArray} {r : Path.Route}
    (h : r ∉ files.map (·.routeIn folder)) : laid folder file? files r = file? r := by
  induction files using List.reverseRecOn with
  | nil => rfl
  | append_singleton files f ih =>
    rw [List.map_append, List.mem_append, not_or, List.map_singleton, List.mem_singleton] at h
    rw [laid_concat, Function.update_of_ne h.2, ih h.1]

/-- The last of the files that go somewhere is what is there. -/
theorem laid_of_last {file? : Path.Route → Option ByteArray} {before after : List SourceFile}
    (h : f.routeIn folder ∉ after.map (·.routeIn folder)) :
    laid folder file? (before ++ f :: after) (f.routeIn folder) = some f.contents.toUTF8 := by
  induction after using List.reverseRecOn with
  | nil => rw [laid_concat, Function.update_self]
  | append_singleton after g ih =>
    rw [List.map_append, List.mem_append, not_or, List.map_singleton, List.mem_singleton] at h
    have hconcat : before ++ f :: (after ++ [g]) = before ++ f :: after ++ [g] := by simp
    rw [hconcat, laid_concat, Function.update_of_ne h.2, ih h.1]

end SourceFile

/-! ### All files -/

/-- A disk after files have been written to a folder. -/
def Disk.after (s : Disk) (folder : String) (files : List SourceFile) : Disk :=
  ((SourceFile.writeAll (m := StateM Disk) folder files).run s).2

/-- **What a report tells of files that were written**: each of them once, and
which of them were found where they go when it was their turn. -/
structure WriteReport.Tells (report : WriteReport) (folder : String) (s : Disk) (files : List SourceFile) :
    Prop where
  perm : (report.written ++ report.unchanged).Perm (files.map (·.pathIn folder))
  unchanged_eq : report.unchanged =
    (files.zipIdx.filter fun (f, i) => f.isHeld folder (s.after folder (files.take i)).file?).map
      fun (f, _) => f.pathIn folder
  written_eq : report.written =
    (files.zipIdx.filter fun (f, i) => !f.isHeld folder (s.after folder (files.take i)).file?).map
      fun (f, _) => f.pathIn folder

/-- **What a disk holds on which files have been written to a folder**: the last
of the files that go to one place, and all else as it was. -/
structure Disk.Holds (s' : Disk) (folder : String) (files : List SourceFile) (s : Disk) : Prop where
  last_isThere : ∀ before f after, files = before ++ f :: after →
    f.routeIn folder ∉ after.map (·.routeIn folder) → s'.file? (f.routeIn folder) = some f.contents.toUTF8
  rest_isKept : ∀ r, r ∉ files.map (·.routeIn folder) → s'.file? r = s.file? r
  folders_eq : s'.folders = s.folders ∪ (Path.Route.of folder).upTo

namespace SourceFile

variable {folder : String} {files : List SourceFile} {s : Disk}

/-- **Files are always written, and there is a report.** -/
theorem run_writeAll_after (folder : String) (s : Disk) (files : List SourceFile) :
    (writeAll (m := StateM Disk) folder files).run s =
      (.ok (reportOf folder s.file? files), s.after folder files) := by
  rw [Disk.after, run_writeAll]

@[simp] theorem file?_after : (s.after folder files).file? = laid folder s.file? files := by
  rw [Disk.after, run_writeAll]

theorem tells_reportOf (folder : String) (s : Disk) (files : List SourceFile) :
    (reportOf folder s.file? files).Tells folder s files := by
  refine ⟨perm_reportOf folder s.file? files, ?_, ?_⟩ <;>
    simp [reportOf, turns, List.filter_map, List.map_map, Function.comp_def]

theorem holds_after (folder : String) (s : Disk) (files : List SourceFile) :
    (s.after folder files).Holds folder files s := by
  refine ⟨?_, fun r hr => ?_, ?_⟩
  · rintro before f after rfl hlast
    rw [file?_after, laid_of_last hlast]
  · rw [file?_after, laid_of_notMem hr]
  · rw [Disk.after, run_writeAll]

end SourceFile

end TypedTables
