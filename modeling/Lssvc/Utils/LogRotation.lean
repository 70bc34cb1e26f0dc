import Lssvc.Utils.Strings

set_option autoImplicit false

namespace Lssvc.Utils

-- std::string::find_last_of.
def findLastOf (set s : Str) : Option Nat :=
  (s.reverse.findIdx? fun c => decide (c ∈ set)).map (s.length - 1 - ·)

def separators : Str := ['/', '\\']

def getFilePath (path : Str) : Str :=
  match findLastOf separators path with
  | none => ['.', '/']
  | some pos => path.take pos

-- The test is for npos, where pos + 1 has come round to 0.
def getFileNameWithExt (path : Str) : Str :=
  match findLastOf separators path with
  | none => if 0 < path.length then path.drop 0 else path
  | some _ => path

def getFileName (path : Str) : Str :=
  let fullname := getFileNameWithExt path
  match findLastOf ['.'] fullname with
  | some pos => if pos ≠ 0 then fullname.take pos else fullname
  | none => fullname

def getFileExtension (path : Str) : Str :=
  let fullname := getFileNameWithExt path
  match findLastOf ['.'] fullname with
  | some pos => if pos ≠ 0 ∧ pos + 1 < fullname.length then fullname.drop (pos + 1) else []
  | none => []

-- sprintf's %0wd: a sign counts for the width.
def padded (width : Nat) (n : Int) : Str :=
  let sign := if n < 0 then ['-'] else []
  let digits := Nat.toDigits 10 n.natAbs
  sign ++ (List.replicate (width - sign.length - digits.length) '0' ++ digits)

structure FileMgr where
  lastMinute : Int
  lastHour : Int
  lastMonth : Int
  lastDay : Int
  lastYear : Int
deriving DecidableEq

def daySuffix (mgr : FileMgr) : Str :=
  '_' :: (padded 4 mgr.lastYear ++ '-' :: (padded 2 mgr.lastMonth ++ '-' :: padded 2 mgr.lastDay))

def hourSuffix (mgr : FileMgr) : Str := daySuffix mgr ++ 'T' :: padded 2 mgr.lastHour

def minuteSuffix (mgr : FileMgr) : Str := hourSuffix mgr ++ padded 2 mgr.lastMinute

structure FileLog where
  filePath : Str
  fileSize : Int
deriving DecidableEq

-- The name passed to LSSFileLog::rotate. A log without content is left alone.
def rotateAs (buf : Str) (file : FileLog) : Option Str :=
  if 0 < file.fileSize then
    some (getFilePath file.filePath ++ getFileName file.filePath ++ buf ++ '.' :: getFileExtension file.filePath)
  else none

def rotateDays (mgr : FileMgr) (file : FileLog) : Option Str := rotateAs (daySuffix mgr) file

def rotateHours (mgr : FileMgr) (file : FileLog) : Option Str := rotateAs (hourSuffix mgr) file

def rotateMinutes (mgr : FileMgr) (file : FileLog) : Option Str := rotateAs (minuteSuffix mgr) file

def logPath (dir stem ext : Str) : Str := dir ++ '/' :: (stem ++ '.' :: ext)

def rotatedPath (dir stem suffix ext : Str) : Str := dir ++ '/' :: (stem ++ suffix ++ '.' :: ext)

theorem find_last_of_here (set front rest : Str) (c : Char) (inside : c ∈ set) (free : ∀ x ∈ rest, x ∉ set) :
    findLastOf set (front ++ c :: rest) = some front.length := by
  have outside : rest.reverse.findIdx? (fun c => decide (c ∈ set)) = none :=
    List.findIdx?_eq_none_iff.mpr fun x there => decide_eq_false (free x (List.mem_reverse.mp there))
  have turned : (front ++ c :: rest).reverse = rest.reverse ++ c :: front.reverse := by
    rw [List.reverse_append, List.reverse_cons, List.append_assoc]
    rfl
  rw [findLastOf, turned, List.findIdx?_append, outside, List.findIdx?_cons, if_pos (decide_eq_true inside)]
  simp only [Option.none_or, Option.map_some, List.length_append, List.length_cons, List.length_reverse]
  congr 1
  omega

section

variable (dir stem ext : Str)

theorem last_separator (stemFree : ∀ c ∈ stem, c ∉ separators) (extFree : ∀ c ∈ ext, c ∉ separators) :
    findLastOf separators (logPath dir stem ext) = some dir.length := by
  refine find_last_of_here separators dir _ '/' (by decide) ?_
  intro c there
  rcases List.mem_append.mp there with first | later
  · exact stemFree c first
  · rcases List.mem_cons.mp later with rfl | last
    · decide
    · exact extFree c last

theorem log_path_dot : logPath dir stem ext = (dir ++ '/' :: stem) ++ '.' :: ext := by
  rw [logPath, List.append_assoc, List.cons_append]

theorem last_dot (dotless : '.' ∉ ext) :
    findLastOf ['.'] (logPath dir stem ext) = some (dir ++ '/' :: stem).length := by
  rw [log_path_dot]
  refine find_last_of_here ['.'] _ ext '.' (by decide) ?_
  intro c there same
  exact dotless (List.mem_singleton.mp same ▸ there)

theorem get_file_path (stemFree : ∀ c ∈ stem, c ∉ separators) (extFree : ∀ c ∈ ext, c ∉ separators) :
    getFilePath (logPath dir stem ext) = dir := by
  rw [getFilePath, last_separator dir stem ext stemFree extFree]
  exact List.take_left

theorem file_name_with_ext (path : Str) : getFileNameWithExt path = path := by
  cases found : findLastOf separators path with
  | some pos => rw [getFileNameWithExt, found]
  | none =>
      rw [getFileNameWithExt, found]
      change (if 0 < path.length then path.drop 0 else path) = path
      rw [List.drop_zero, ite_self]

theorem get_file_name (dotless : '.' ∉ ext) : getFileName (logPath dir stem ext) = dir ++ '/' :: stem := by
  have inside : (dir ++ '/' :: stem).length ≠ 0 := by
    rw [List.length_append, List.length_cons]
    omega
  simp only [getFileName, file_name_with_ext]
  rw [last_dot dir stem ext dotless]
  change (if _ then _ else _) = _
  rw [if_pos inside, log_path_dot, List.take_left]

theorem get_file_extension (some' : ext ≠ []) (dotless : '.' ∉ ext) :
    getFileExtension (logPath dir stem ext) = ext := by
  have length := List.length_pos_iff.mpr some'
  have inside : (dir ++ '/' :: stem).length ≠ 0 ∧ (dir ++ '/' :: stem).length + 1 < (logPath dir stem ext).length := by
    simp only [logPath, List.length_append, List.length_cons]
    omega
  simp only [getFileExtension, file_name_with_ext]
  rw [last_dot dir stem ext dotless]
  change (if _ then _ else _) = _
  rw [if_pos inside, log_path_dot, ← List.drop_drop, List.drop_left]
  rfl

-- The directory is written twice, without a separator in between.
theorem rotate_as_name (buf : Str) (file : FileLog) (path : file.filePath = logPath dir stem ext)
    (stemFree : ∀ c ∈ stem, c ∉ separators) (extFree : ∀ c ∈ ext, c ∉ separators) (some' : ext ≠ [])
    (dotless : '.' ∉ ext) :
    rotateAs buf file = if 0 < file.fileSize then some (dir ++ rotatedPath dir stem buf ext) else none := by
  rw [rotateAs, path, get_file_path dir stem ext stemFree extFree, get_file_name dir stem ext dotless,
    get_file_extension dir stem ext some' dotless, rotatedPath]
  simp only [List.append_assoc, List.cons_append]

theorem rotate_as_named (buf : Str) (file : FileLog) (path : file.filePath = logPath dir stem ext) (outer : dir ≠ [])
    (stemFree : ∀ c ∈ stem, c ∉ separators) (extFree : ∀ c ∈ ext, c ∉ separators) (some' : ext ≠ [])
    (dotless : '.' ∉ ext) :
    (∀ name, rotateAs buf file = some name → name = rotatedPath dir stem buf ext) ↔ ¬ 0 < file.fileSize := by
  rw [rotate_as_name dir stem ext buf file path stemFree extFree some' dotless]
  constructor
  · intro named content
    have twice := named _ (if_pos content)
    exact outer (List.append_left_eq_self.mp twice)
  · intro empty name passed
    rw [if_neg empty] at passed
    cases passed

theorem rotated_names (mgr : FileMgr) (file : FileLog) (path : file.filePath = logPath dir stem ext)
    (outer : dir ≠ []) (stemFree : ∀ c ∈ stem, c ∉ separators) (extFree : ∀ c ∈ ext, c ∉ separators)
    (some' : ext ≠ []) (dotless : '.' ∉ ext) :
    ((∀ name, rotateDays mgr file = some name → name = rotatedPath dir stem (daySuffix mgr) ext) ↔
      ¬ 0 < file.fileSize) ∧
    ((∀ name, rotateHours mgr file = some name → name = rotatedPath dir stem (hourSuffix mgr) ext) ↔
      ¬ 0 < file.fileSize) ∧
    ((∀ name, rotateMinutes mgr file = some name → name = rotatedPath dir stem (minuteSuffix mgr) ext) ↔
      ¬ 0 < file.fileSize) :=
  ⟨rotate_as_named dir stem ext (daySuffix mgr) file path outer stemFree extFree some' dotless,
    rotate_as_named dir stem ext (hourSuffix mgr) file path outer stemFree extFree some' dotless,
    rotate_as_named dir stem ext (minuteSuffix mgr) file path outer stemFree extFree some' dotless⟩

end

theorem rotated_names_log :
    ((∀ name, rotateDays ⟨5, 13, 1, 2, 2024⟩ ⟨logPath ['l', 'o', 'g', 's'] ['a', 'p', 'p'] ['l', 'o', 'g'], 1⟩ = some name →
        name = rotatedPath ['l', 'o', 'g', 's'] ['a', 'p', 'p'] (daySuffix ⟨5, 13, 1, 2, 2024⟩) ['l', 'o', 'g']) ↔
      ¬ (0 : Int) < 1) :=
  (rotated_names ['l', 'o', 'g', 's'] ['a', 'p', 'p'] ['l', 'o', 'g'] ⟨5, 13, 1, 2, 2024⟩
    ⟨logPath ['l', 'o', 'g', 's'] ['a', 'p', 'p'] ['l', 'o', 'g'], 1⟩ rfl (by decide) (by simp [separators])
    (by simp [separators]) (by decide) (by decide)).1

theorem rotated_names_twice :
    let mgr : FileMgr := ⟨5, 13, 1, 2, 2024⟩
    let file : FileLog := ⟨logPath ['l', 'o', 'g', 's'] ['a', 'p', 'p'] ['l', 'o', 'g'], 1⟩
    let named := fun suffix => rotatedPath ['l', 'o', 'g', 's'] ['a', 'p', 'p'] suffix ['l', 'o', 'g']
    named (daySuffix mgr) =
        ['l', 'o', 'g', 's', '/', 'a', 'p', 'p', '_', '2', '0', '2', '4', '-', '0', '1', '-', '0', '2', '.', 'l', 'o', 'g'] ∧
      rotateDays mgr file = some (['l', 'o', 'g', 's'] ++ named (daySuffix mgr)) ∧
      rotateDays mgr file ≠ some (named (daySuffix mgr)) ∧ rotateHours mgr file ≠ some (named (hourSuffix mgr)) ∧
      rotateMinutes mgr file ≠ some (named (minuteSuffix mgr)) := by
  decide

end Lssvc.Utils
