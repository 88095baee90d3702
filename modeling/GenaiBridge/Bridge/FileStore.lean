/-
The file store: one YAML file with every watermark, read once and rewritten by each save.

The YAML library is an argument, with the law that it reads what it wrote: a map from key
to time, cursor and epoch, of which the time is a text in the layout of `time.RFC3339Nano`
that is read as a timestamp again.  `Store.save` is a save as a whole; `DiskStore.save`
is the same save by its steps, where the map is changed first, the file system may refuse
each of three calls, and the map is put back by hand.
-/
import GenaiBridge.Bridge.Checkpoint

namespace GenaiBridge

namespace FileStore

/-- The document of a file: for every key the text of the time, the cursor and the epoch. -/
abbrev Document := Lib.SortedMap String (String × String × Int64)

/-- `gopkg.in/yaml.v3`, as far as the store uses it. -/
structure Yaml (Text : Type) where
  marshal : Document → Except String Text
  unmarshal : Text → Option Document
  unmarshal_marshal : ∀ {doc : Document} {text : Text}, marshal doc = .ok text →
    unmarshal text = some doc

/-- A `record` as it is written. -/
def writeRecord (w : Watermark) : String × String × Int64 :=
  (String.ofList (Lib.Rfc3339.formatNano w.time), w.cursor, w.epoch)

/-- A `record` as it is read; a text that is no timestamp is an error. -/
def readRecord (r : String × String × Int64) : Option Watermark :=
  (Lib.Rfc3339.parse r.1.toList).map fun t => { time := t, cursor := r.2.1, epoch := r.2.2 }

/-- `yaml.Unmarshal` into the map of the store: one record that is not read fails all. -/
def readDocument (doc : Document) : Option (Lib.SortedMap String Watermark) :=
  if doc.entries.all fun e => (readRecord e.2).isSome then
    some (doc.entries.foldl (Lib.SortedMap.collectStep fun _ r => readRecord r) .empty)
  else none

variable {Text : Type}

/-- `file.Store`: the map in memory, and what the file holds. -/
structure Store (Text : Type) where
  data : Lib.SortedMap String Watermark
  file : Option Text

/-- What `os.ReadFile` returns. -/
inductive FileRead (Text : Type)
  | absent
  | failed (cause : String)
  | content (text : Text)

/-- An error of `New`. -/
inductive NewError
  | read (cause : String)
  /-- `corrupt %s (refusing start)`. -/
  | corrupt
deriving DecidableEq

/-- `New`. -/
def new (yaml : Yaml Text) (ignoreInvalid : Bool) : FileRead Text → Except NewError (Store Text)
  | .absent => .ok ⟨.empty, none⟩
  | .failed cause => .error (.read cause)
  | .content text =>
    match (yaml.unmarshal text).bind readDocument with
    | some data => .ok ⟨data, some text⟩
    | none => if ignoreInvalid then .ok ⟨.empty, some text⟩ else .error .corrupt

/-- `Load`. -/
def Store.load (s : Store Text) (key : CheckpointKey) : Watermark :=
  (s.data.get? key.string).getD {}

/-- `flushLocked`; `failure` is the error of the file system, if there is one. -/
def flush (yaml : Yaml Text) (failure : Option String) (data : Lib.SortedMap String Watermark) :
    Except String Text :=
  match yaml.marshal (data.map writeRecord) with
  | .error err => .error err
  | .ok text =>
    match failure with
    | some err => .error err
    | none => .ok text

/-- `Save`: the store afterwards, rolled back if the file could not be written. -/
def Store.save (yaml : Yaml Text) (failure : Option String) (s : Store Text) (key : CheckpointKey)
    (w : Watermark) : Store Text × Except SaveError Unit :=
  match checkMonotonic (s.load key) w with
  | .error e => (s, .error e)
  | .ok () =>
    let data := s.data.insert key.string w
    match flush yaml failure data with
    | .error err => (s, .error (.write err))
    | .ok text => (⟨data, some text⟩, .ok ())

/-! ### A save by its steps -/

/-- The file, which nothing but a rename replaces, and the temporary file next to it. -/
structure Disk (Text : Type) where
  file : Option Text
  tmp : Option Text

/-- What the file system answers to the calls of `flushLocked`: an error, or nil.  A write that
fails may leave anything in the temporary file. -/
structure DiskAnswers (Text : Type) where
  mkdirAll : Option String
  writeFile : Option (String × Option Text)
  rename : Option String

/-- `flushLocked`. -/
def flushLocked (yaml : Yaml Text) (answers : DiskAnswers Text)
    (data : Lib.SortedMap String Watermark) (disk : Disk Text) : Disk Text × Except String Unit :=
  match yaml.marshal (data.map writeRecord) with
  | .error err => (disk, .error err)
  | .ok text =>
    match answers.mkdirAll with
    | some err => (disk, .error err)
    | none =>
      match answers.writeFile with
      | some (err, left) => ({ disk with tmp := left }, .error err)
      | none =>
        match answers.rename with
        | some err => ({ disk with tmp := some text }, .error err)
        | none => (⟨some text, none⟩, .ok ())

/-- `file.Store`: the map in memory, and the disk. -/
structure DiskStore (Text : Type) where
  data : Lib.SortedMap String Watermark
  disk : Disk Text

/-- `Save`. -/
def DiskStore.save (yaml : Yaml Text) (answers : DiskAnswers Text) (s : DiskStore Text)
    (key : CheckpointKey) (w : Watermark) : DiskStore Text × Except SaveError Unit :=
  let k := key.string
  let prev := s.data.get? k
  match checkMonotonic (prev.getD {}) w with
  | .error e => (s, .error e)
  | .ok () =>
    let data := s.data.insert k w
    match flushLocked yaml answers data s.disk with
    | (disk, .ok ()) => (⟨data, disk⟩, .ok ())
    | (disk, .error err) =>
      let data := match prev with
        | some prev => data.insert k prev
        | none => data.erase k
      (⟨data, disk⟩, .error (.write err))

end FileStore

end GenaiBridge
