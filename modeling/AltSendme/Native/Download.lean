import AltSendme.Execution.Run
import AltSendme.Files.Export
import Mathlib.Data.UInt

/-! One call of the native `download` with the events that it emits to the
handle it was given. Its transfer runs `download_to_store` of the protocol and then the
export, until the cancel channel resolves; each await is one step, taken with its answer. -/
namespace AltSendme.Download
open Execution Files

/-- What is emitted to the app handle. The speed is that of the moment. -/
inductive ReceiveEvent where
  | started
  | progress (bytesTransferred totalBytes : Nat) (speedInt : Int)
  | fileNames (names : List String)
  | conflicts (conflicts : List ExportConflict)
  | completed
  deriving DecidableEq, Repr

/-- What a call did so far. `exported` is `export_to_directory` returning `Ok`. -/
inductive Mark where
  | emitted (event : ReceiveEvent)
  | exported
  deriving DecidableEq, Repr

/-- What the store has of the ticket's collection when the call begins. The
children count the metadata of the collection too, so a complete collection has one at
least. -/
inductive LocalInfo where
  | incomplete
  | complete (children : Nat)
  deriving DecidableEq, Repr

def LocalInfo.isComplete : LocalInfo → Bool
  | .incomplete => false
  | .complete _ => true

structure Totals where
  totalFiles : Nat
  payloadSize : Nat
  deriving DecidableEq, Repr

/-- What the transfer failed with. -/
inductive TransferError where
  | call (message : String)
  | exporting (error : ExportError)
  deriving DecidableEq, Repr

inductive DownloadError where
  | setup (message : String)
  | shutdown (message : String)
  /-- `error: {e}` -/
  | transfer (error : TransferError)
  | cancelled
  deriving DecidableEq, Repr

structure ReceiveResult where
  message : String
  filePath : Path
  deriving DecidableEq, Repr

/-- The awaits of `download_to_store`. -/
inductive StoreStage where
  /-- `db.remote().local` -/
  | lookingUp
  | connecting
  /-- `get_hash_seq_and_sizes` -/
  | sizing
  /-- the items of `execute_get` -/
  | streaming (totals : Totals) (lastLogOffset : Nat)
  /-- `Collection::load` -/
  | loading (totals : Totals)
  deriving DecidableEq, Repr

/-- The awaits of `download`. -/
inductive Stage (Content : Type) where
  /-- up to the bound endpoint; the ticket is parsed first -/
  | binding
  | creatingStore
  | storing (stage : StoreStage)
  | exporting (totals : Totals) (left : List (String × Content))
  /-- the endpoint of a transfer that succeeded -/
  | closing (totals : Totals)
  | closingFailed (error : TransferError)
  | shuttingDown (error : TransferError)
  | shuttingCancelled
  | closingCancelled
  | returned (result : Except DownloadError ReceiveResult)
  deriving DecidableEq

/-- How an awaited call ends; `cancelled` is the branch of the `select!` on the
cancel receiver. -/
inductive Answer (Content : Type) where
  | ok
  | failed (message : String)
  | sizes (sizes : List Nat)
  | progress (offset : Nat) (speedInt : Int)
  | done (speedInt : Int)
  /-- the stream of items ends without `Done` -/
  | ended
  | collection (files : List (String × Content))
  | exported (outcome : Outcome Content)
  | cancelled

section
variable {Content : Type}

/-- How a turn of `download_to_store` ends. -/
inductive StoreNext (Content : Type) where
  | goOn (stage : StoreStage)
  | loaded (totals : Totals) (files : List (String × Content))
  | failed (message : String)

/-- One turn of `download_to_store`, with the events that it emits. -/
def storeTurn (stored : LocalInfo) :
    StoreStage → Answer Content → Option (List ReceiveEvent × StoreNext Content)
  | .lookingUp, .ok =>
      match stored with
      | .incomplete => some ([.started], .goOn .connecting)
      | .complete children =>
          some ([.started, .completed], .goOn (.loading ⟨children - 1, 0⟩))
  | .connecting, .ok => some ([], .goOn .sizing)
  | .connecting, .failed message => some ([], .failed ("Connection failed: " ++ message))
  | .sizing, .sizes sizes =>
      -- a sum of `u64` in a release build
      let totals : Totals := ⟨sizes.length - 1, (sizes.drop 1).sum % 2 ^ 64⟩
      some ([.progress 0 totals.payloadSize 0], .goOn (.streaming totals 0))
  | .streaming totals lastLogOffset, .progress offset speedInt =>
      -- a difference of `u64` in a release build
      if (offset + 2 ^ 64 - lastLogOffset) % 2 ^ 64 > 1000000 then
        some ([.progress (min offset totals.payloadSize) totals.payloadSize speedInt],
          .goOn (.streaming totals offset))
      else some ([], .goOn (.streaming totals lastLogOffset))
  | .streaming totals _, .done speedInt =>
      some ([.progress totals.payloadSize totals.payloadSize speedInt], .goOn (.loading totals))
  | .streaming totals _, .ended => some ([], .goOn (.loading totals))
  | .loading totals, .collection files =>
      some (if files.isEmpty then [] else [.fileNames (files.map (·.1))], .loaded totals files)
  | _, .failed message => some ([], .failed message)
  | _, _ => none

def StoreStage.findsComplete (stored : LocalInfo) : StoreStage → Answer Content → Bool
  | .lookingUp, .ok => stored.isComplete
  | _, _ => false

def Stage.findsComplete (stored : LocalInfo) : Stage Content → Answer Content → Bool
  | .storing stage, answer => stage.findsComplete stored answer
  | _, _ => false

/-- `loaded` are the files of the collection, once it is loaded; `written` is the file
system and what the export did to it so far. -/
structure Call (Content : Type) where
  stage : Stage Content
  stored : LocalInfo
  outputDir : Path
  loaded : List (String × Content)
  written : Export Content
  log : List Mark

namespace Call

def goTo (s : Call Content) (stage : Stage Content) : Call Content := { s with stage := stage }

def emit (s : Call Content) (events : List ReceiveEvent) : Call Content :=
  { s with log := s.log ++ events.map .emitted }

/-- The transfer after its export. -/
def finish (s : Call Content) (totals : Totals) : Call Content :=
  let s := { s with log := s.log ++ [Mark.exported] }
  let conflicts := s.written.conflicts
  (s.emit (if conflicts.isEmpty then [.completed] else [.conflicts conflicts, .completed])).goTo
    (.closing totals)

def exportNext (s : Call Content) (totals : Totals) (left : List (String × Content)) :
    Call Content :=
  if left.isEmpty then s.finish totals else s.goTo (.exporting totals left)

def afterStore (s : Call Content) : StoreNext Content → Call Content
  | .goOn stage => s.goTo (.storing stage)
  | .loaded totals files => { s with loaded := files }.exportNext totals files
  | .failed message => s.goTo (.closingFailed (.call message))

def message (totals : Totals) (conflictCount : Nat) : String :=
  let files := totals.totalFiles
  let bytes := totals.payloadSize
  if conflictCount > 0 then
    s!"Downloaded {files} files, {bytes} bytes ({conflictCount} name conflicts auto-resolved)"
  else s!"Downloaded {files} files, {bytes} bytes"

/-- One step of `download`. What a cancelled export leaves of the file at hand
is not followed. -/
def next (display : Path → String) (s : Call Content) (answer : Answer Content) :
    Option (Call Content) :=
  match s.stage, answer with
  | .binding, .ok => some (s.goTo .creatingStore)
  | .binding, .failed message => some (s.goTo (.returned (.error (.setup message))))
  | .creatingStore, .ok => some (s.goTo (.storing .lookingUp))
  | .creatingStore, .failed message => some (s.goTo (.returned (.error (.setup message))))
  | .storing _, .cancelled => some (s.goTo .shuttingCancelled)
  | .storing stage, answer =>
      (storeTurn s.stored stage answer).map fun r => (s.emit r.1).afterStore r.2
  | .exporting _ _, .cancelled => some (s.goTo .shuttingCancelled)
  | .exporting totals (file :: left), .exported outcome =>
      match exportFile display s.outputDir s.written file outcome with
      | (written, none) => some ({ s with written := written }.exportNext totals left)
      | (written, some e) =>
          some ({ s with written := written }.goTo (.closingFailed (.exporting e)))
  | .closing totals, .ok =>
      some (s.goTo (.returned (.ok ⟨message totals s.written.conflicts.length, s.outputDir⟩)))
  | .closingFailed error, .ok => some (s.goTo (.shuttingDown error))
  | .shuttingDown error, .ok => some (s.goTo (.returned (.error (.transfer error))))
  | .shuttingDown _, .failed message => some (s.goTo (.returned (.error (.shutdown message))))
  | .shuttingCancelled, .ok => some (s.goTo .closingCancelled)
  | .shuttingCancelled, .failed message =>
      some (s.goTo (.returned (.error (.shutdown message))))
  | .closingCancelled, .ok => some (s.goTo (.returned (.error .cancelled)))
  | _, _ => none

/-- A call on a file system and a store in any state. -/
def start (stored : LocalInfo) (fs : FileSystem Content) (outputDir : Path) : Call Content :=
  ⟨.binding, stored, outputDir, [], ⟨fs, [], []⟩, []⟩

/-- The step looks up the local store and finds it complete. -/
def findsComplete (s : Call Content) (answer : Answer Content) : Bool :=
  s.stage.findsComplete s.stored answer

/-- How often `receive-completed` was emitted. -/
def completions (log : List Mark) : Nat := log.count (.emitted .completed)

/-- These files were exported, none of them with an error. -/
def Exported (display : Path → String) (fs : FileSystem Content) (s : Call Content)
    (files : List (String × Content)) : Prop :=
  ∃ outcomes, exportToDirectory display outcomes fs s.outputDir files = (s.written, none)

/-- The whole collection that was loaded was exported. -/
def Written (display : Path → String) (fs : FileSystem Content) (s : Call Content) : Prop :=
  s.Exported display fs s.loaded

/-- `receive-completed` means that the files of the collection are on disk: it is
emitted once by a call that returns `Ok`, after the export of all that was loaded, and
never by one that returns an error. -/
def MeansOnDisk (display : Path → String) (fs : FileSystem Content) (s : Call Content) :
    Except DownloadError ReceiveResult → Prop
  | .ok _ => s.Written display fs ∧ completions s.log = 1 ∧
      ∃ before after, s.log = before ++ .exported :: after ∧ completions before = 0
  | .error _ => completions s.log = 0

/-- The log of a call whose export is done, with `fast` completions before it. -/
def Published (fast : Nat) (s : Call Content) : Prop :=
  ∃ before after, s.log = before ++ .exported :: after ∧
    completions before = fast ∧ completions after = 1

/-- What each await knows of the events, `fast` being whether the store was
found complete. -/
def BooksAt (display : Path → String) (fs : FileSystem Content) (fast : Bool) (s : Call Content) :
    Stage Content → Prop
  | .binding | .creatingStore | .storing .lookingUp =>
      fast = false ∧ completions s.log = 0 ∧ s.Exported display fs []
  | .storing _ => completions s.log = fast.toNat ∧ s.Exported display fs []
  | .exporting _ left => completions s.log = fast.toNat ∧
      ∃ done, s.loaded = done ++ left ∧ s.Exported display fs done
  | .closing _ | .returned (.ok _) => s.Published fast.toNat ∧ s.Written display fs
  | _ => completions s.log = fast.toNat

def Books (display : Path → String) (fs : FileSystem Content) (fast : Bool) (s : Call Content) :
    Prop :=
  s.BooksAt display fs fast s.stage

theorem completions_emit (s : Call Content) (events : List ReceiveEvent) :
    completions (s.emit events).log = completions s.log + events.count .completed := by
  rw [completions, emit, List.count_append, completions]
  congr 1
  induction events with
  | nil => rfl
  | cons event rest ih => cases event <;> simp_all

theorem finish_published {s : Call Content} {fast : Nat} (h : completions s.log = fast)
    (totals : Totals) : (s.finish totals).Published fast := by
  refine ⟨s.log, _, List.append_assoc _ _ _, h, ?_⟩
  split <;> rfl

/-- One more file is exported to the end. -/
theorem exportFiles_concat {display : Path → String} {outputDir : Path}
    {outcomes : Nat → Outcome Content} {s t u : Export Content}
    {files : List (String × Content)} {file : String × Content} {outcome : Outcome Content}
    (hFiles : exportFiles display outputDir outcomes s files = (t, none))
    (hFile : exportFile display outputDir t file outcome = (u, none)) :
    ∃ outcomes', exportFiles display outputDir outcomes' s (files ++ [file]) = (u, none) := by
  induction files generalizing s outcomes with
  | nil =>
      cases hFiles
      refine ⟨fun _ => outcome, ?_⟩
      rw [List.nil_append, exportFiles, hFile]
      rfl
  | cons first rest ih =>
      rw [exportFiles] at hFiles
      cases hFirst : exportFile display outputDir s first (outcomes 0) with
      | mk mid failed =>
          rw [hFirst] at hFiles
          cases failed with
          | some e => cases hFiles
          | none =>
              obtain ⟨later, hLater⟩ := ih hFiles
              let both : Nat → Outcome Content := Nat.rec (outcomes 0) fun i _ => later i
              have hHead : exportFile display outputDir s first (both 0) = (mid, none) := hFirst
              refine ⟨both, ?_⟩
              rw [List.cons_append, exportFiles, hHead]
              exact hLater

theorem Exported.one_more {display : Path → String} {fs : FileSystem Content} {s : Call Content}
    {done : List (String × Content)} {file : String × Content} {outcome : Outcome Content}
    {written : Export Content} (h : s.Exported display fs done)
    (hFile : exportFile display s.outputDir s.written file outcome = (written, none)) :
    ({ s with written := written } : Call Content).Exported display fs (done ++ [file]) := by
  obtain ⟨outcomes, hFiles⟩ := h
  exact exportFiles_concat hFiles hFile

/-- The transfer goes on with its books in order. -/
theorem exportNext_books {display : Path → String} {fs : FileSystem Content} {fast : Bool}
    {s : Call Content} {done left : List (String × Content)}
    (hCount : completions s.log = fast.toNat) (hLoaded : s.loaded = done ++ left)
    (hDone : s.Exported display fs done) (totals : Totals) :
    (s.exportNext totals left).Books display fs fast := by
  unfold exportNext
  cases left with
  | nil =>
      rw [List.append_nil] at hLoaded
      refine ⟨finish_published hCount totals, ?_⟩
      show s.Exported display fs s.loaded
      rwa [hLoaded]
  | cons file rest => exact ⟨hCount, done, hLoaded, hDone⟩

/-- Among the events of a turn there is a completion exactly on the fast path. -/
theorem storeTurn_completions {stored : LocalInfo} {stage : StoreStage} {answer : Answer Content}
    {events : List ReceiveEvent} {n : StoreNext Content}
    (hTurn : storeTurn stored stage answer = some (events, n)) :
    events.count .completed = (stage.findsComplete stored answer).toNat ∧
      n ≠ .goOn .lookingUp := by
  unfold storeTurn at hTurn
  split at hTurn
  · cases stored <;> cases hTurn <;> exact ⟨rfl, nofun⟩
  · cases hTurn
    exact ⟨rfl, nofun⟩
  · cases hTurn
    exact ⟨rfl, nofun⟩
  · cases hTurn
    exact ⟨rfl, nofun⟩
  · split at hTurn <;> cases hTurn <;> exact ⟨rfl, nofun⟩
  · cases hTurn
    exact ⟨rfl, nofun⟩
  · cases hTurn
    exact ⟨rfl, nofun⟩
  · cases hTurn
    refine ⟨?_, nofun⟩
    split <;> rfl
  · cases hTurn
    refine ⟨?_, nofun⟩
    cases stage <;> rfl
  · cases hTurn

theorem findsComplete_of_ne {stored : LocalInfo} {stage : StoreStage} {answer : Answer Content}
    (h : stage ≠ .lookingUp) : stage.findsComplete stored answer = false := by
  unfold StoreStage.findsComplete
  split
  · exact absurd rfl h
  · rfl

/-- What `download_to_store` relies on, at any of its awaits. -/
theorem Books.of_storing {display : Path → String} {fs : FileSystem Content} {fast : Bool}
    {s : Call Content} {stage : StoreStage} (hs : s.Books display fs fast)
    (hStage : s.stage = .storing stage) :
    completions s.log = fast.toNat ∧ s.Exported display fs [] ∧
      (stage = .lookingUp → fast = false) := by
  rw [Books, hStage] at hs
  cases stage with
  | lookingUp =>
      obtain ⟨rfl, hNone, hWritten⟩ := hs
      exact ⟨hNone, hWritten, fun _ => rfl⟩
  | _ => exact ⟨hs.1, hs.2, nofun⟩

theorem storeTurn_books {display : Path → String} {fs : FileSystem Content} {fast : Bool}
    {s : Call Content} {stage : StoreStage} {answer : Answer Content} {events : List ReceiveEvent}
    {n : StoreNext Content} (hStage : s.stage = .storing stage) (hs : s.Books display fs fast)
    (hTurn : storeTurn s.stored stage answer = some (events, n)) :
    ((s.emit events).afterStore n).Books display fs (fast || s.findsComplete answer) := by
  obtain ⟨hEvents, hOn⟩ := storeTurn_completions hTurn
  have hFinds : s.findsComplete answer = stage.findsComplete s.stored answer := by
    rw [findsComplete, hStage]
    rfl
  obtain ⟨hLog, hWritten, hEarly⟩ := hs.of_storing hStage
  have hCount : completions (s.emit events).log = (fast || s.findsComplete answer).toNat := by
    rw [completions_emit, hEvents, hFinds, hLog]
    cases hFast : stage.findsComplete s.stored answer with
    | false => rw [Bool.or_false]; rfl
    | true =>
        by_cases hLooking : stage = .lookingUp
        · rw [hEarly hLooking]
          rfl
        · rw [findsComplete_of_ne hLooking] at hFast
          cases hFast
  cases n with
  | goOn stage' =>
      cases stage' with
      | lookingUp => exact absurd rfl hOn
      | _ => exact ⟨hCount, hWritten⟩
  | loaded totals files =>
      exact @exportNext_books _ _ _ _ { s.emit events with loaded := files } [] files hCount rfl
        hWritten totals
  | failed message => exact hCount

/-- Before the store is looked up nothing was completed. -/
theorem count_of_early {fast : Bool} {s : Call Content} {P : Prop}
    (h : fast = false ∧ completions s.log = 0 ∧ P) : completions s.log = fast.toNat := by
  obtain ⟨rfl, hNone, _⟩ := h
  exact hNone

/-- A step that only goes on to another await. -/
theorem Books.moved {display : Path → String} {fs : FileSystem Content} {fast : Bool}
    {s : Call Content} {stage stage' : Stage Content} {answer : Answer Content}
    (hs : s.Books display fs fast) (hStage : s.stage = stage)
    (hQuiet : stage.findsComplete s.stored answer = false)
    (hMove : s.BooksAt display fs fast stage → s.BooksAt display fs fast stage') :
    (s.goTo stage').Books display fs (fast || s.findsComplete answer) := by
  rw [findsComplete, hStage, hQuiet, Bool.or_false]
  rw [Books, hStage] at hs
  exact hMove hs

/-- One step keeps the books, and enters into them what the lookup found. -/
theorem books_step {display : Path → String} {fs : FileSystem Content} {fast : Bool}
    {s t : Call Content} {answer : Answer Content} (hs : s.Books display fs fast)
    (hNext : s.next display answer = some t) :
    t.Books display fs (fast || s.findsComplete answer) := by
  unfold next at hNext
  split at hNext
  · next hStage =>
      obtain rfl := Option.some.inj hNext
      exact hs.moved hStage rfl id
  · next hStage =>
      obtain rfl := Option.some.inj hNext
      exact hs.moved hStage rfl count_of_early
  · next hStage =>
      obtain rfl := Option.some.inj hNext
      exact hs.moved hStage rfl id
  · next hStage =>
      obtain rfl := Option.some.inj hNext
      exact hs.moved hStage rfl count_of_early
  · next stage hStage =>
      obtain rfl := Option.some.inj hNext
      exact hs.moved hStage (by cases stage <;> rfl) fun _ => (hs.of_storing hStage).1
  · next stage hStage _ =>
      obtain ⟨⟨events, n⟩, hTurn, rfl⟩ := Option.map_eq_some_iff.mp hNext
      exact storeTurn_books hStage hs hTurn
  · next hStage =>
      obtain rfl := Option.some.inj hNext
      exact hs.moved hStage rfl And.left
  · next totals file left outcome hStage =>
      have hQuiet : s.findsComplete (.exported outcome) = false := by
        rw [findsComplete, hStage]
        rfl
      rw [Books, hStage] at hs
      obtain ⟨hCount, done, hLoaded, hWritten⟩ := hs
      rw [hQuiet, Bool.or_false]
      split at hNext
      · next written hFile =>
          obtain rfl := Option.some.inj hNext
          refine @exportNext_books _ _ _ _ { s with written := written } (done ++ [file]) left hCount
            ?_ (hWritten.one_more hFile) totals
          rw [List.append_assoc]
          exact hLoaded
      · obtain rfl := Option.some.inj hNext
        exact hCount
  · next hStage =>
      obtain rfl := Option.some.inj hNext
      exact hs.moved hStage rfl id
  · next hStage =>
      obtain rfl := Option.some.inj hNext
      exact hs.moved hStage rfl id
  · next hStage =>
      obtain rfl := Option.some.inj hNext
      exact hs.moved hStage rfl id
  · next hStage =>
      obtain rfl := Option.some.inj hNext
      exact hs.moved hStage rfl id
  · next hStage =>
      obtain rfl := Option.some.inj hNext
      exact hs.moved hStage rfl id
  · next hStage =>
      obtain rfl := Option.some.inj hNext
      exact hs.moved hStage rfl id
  · next hStage =>
      obtain rfl := Option.some.inj hNext
      exact hs.moved hStage rfl id
  · cases hNext

/-- Some step of the run finds the local store complete. -/
def FoundComplete (display : Path → String) (s : Call Content) (answers : List (Answer Content)) :
    Prop :=
  Hits (next display) (fun s answer => s.findsComplete answer = true) s answers

instance (display : Path → String) (s : Call Content) (answers : List (Answer Content)) :
    Decidable (s.FoundComplete display answers) := inferInstanceAs (Decidable (Hits _ _ _ _))

/-- The books of a whole run. -/
theorem books_run {display : Path → String} {stored : LocalInfo} {fs : FileSystem Content}
    {outputDir : Path} {answers : List (Answer Content)} {t : Call Content}
    (hRun : exec (next display) (start stored fs outputDir) answers = some t) :
    t.Books display fs (decide (FoundComplete display (start stored fs outputDir) answers)) := by
  refine @exec_history _ _ (next display)
    (fun answers t => t.Books display fs
      (decide (FoundComplete display (start stored fs outputDir) answers)))
    (start stored fs outputDir) ?_ ?_ answers t hRun
  · exact ⟨rfl, rfl, fun _ => .done, rfl⟩
  · intro answers m answer t hReach hs hNext
    have hStep := books_step hs hNext
    have hFound : FoundComplete display (start stored fs outputDir) (answers ++ [answer]) ↔
        FoundComplete display (start stored fs outputDir) answers ∨ m.findsComplete answer = true :=
      hits_concat hReach
    rw [← Bool.decide_coe (m.findsComplete answer), ← Bool.decide_or] at hStep
    simpa only [hFound] using hStep

end Call

/-- A call that has returned emitted `receive-completed` as it should exactly
when it did not find its store complete. -/
theorem receive_completed_on_disk_iff {display : Path → String} {stored : LocalInfo}
    {fs : FileSystem Content} {outputDir : Path} {answers : List (Answer Content)}
    {t : Call Content} {result : Except DownloadError ReceiveResult}
    (hRun : exec (Call.next display) (.start stored fs outputDir) answers = some t)
    (hReturned : t.stage = .returned result) :
    t.MeansOnDisk display fs result ↔
      ¬Call.FoundComplete display (.start stored fs outputDir) answers := by
  have hBooks := Call.books_run hRun
  rw [Call.Books, hReturned] at hBooks
  by_cases hFound : Call.FoundComplete display (.start stored fs outputDir) answers
  · rw [decide_eq_true hFound] at hBooks
    refine ⟨fun hDisk => ?_, fun hNot => absurd hFound hNot⟩
    cases result with
    | ok value =>
        obtain ⟨⟨before, after, hLog, hBefore, hAfter⟩, _⟩ := hBooks
        have hTwo : Call.completions t.log = 2 := by
          rw [Call.completions] at hBefore hAfter ⊢
          rw [hLog, List.count_append, List.count_cons_of_ne (by nofun), hBefore, hAfter]
          rfl
        rw [Call.MeansOnDisk, hTwo] at hDisk
        cases hDisk.2.1
    | error e =>
        have hOne : Call.completions t.log = 1 := hBooks
        rw [Call.MeansOnDisk, hOne] at hDisk
        cases hDisk
  · rw [decide_eq_false hFound] at hBooks
    refine ⟨fun _ => hFound, fun _ => ?_⟩
    cases result with
    | ok value =>
        obtain ⟨⟨before, after, hLog, hBefore, hAfter⟩, hWritten⟩ := hBooks
        refine ⟨hWritten, ?_, before, after, hLog, hBefore⟩
        rw [Call.completions] at hBefore hAfter ⊢
        rw [hLog, List.count_append, List.count_cons_of_ne (by nofun), hBefore, hAfter]
        rfl
    | error e => exact hBooks

end

/-- One file is fetched into an empty store and exported. -/
theorem receive_completed_on_disk_iff_fetched :
    ∃ (t : Call Nat) (value : ReceiveResult), t.stage = .returned (.ok value) ∧
      t.MeansOnDisk (String.intercalate "/") (fun _ => none) (.ok value) := by
  let answers : List (Answer Nat) :=
    [.ok, .ok, .ok, .ok, .sizes [64, 10], .done 7, .collection [("a.txt", 3)], .exported .done, .ok]
  have hRun : ∃ t, exec (Call.next (String.intercalate "/"))
        (.start .incomplete (fun _ => none) ["home"]) answers = some t ∧
      t.stage = .returned (.ok ⟨"Downloaded 1 files, 10 bytes", ["home"]⟩) ∧
      ¬Call.FoundComplete (String.intercalate "/") (.start .incomplete (fun _ => none) ["home"])
        answers := by
    decide
  obtain ⟨t, hRun, hReturned, hFound⟩ := hRun
  exact ⟨t, _, hReturned, (receive_completed_on_disk_iff hRun hReturned).mpr hFound⟩

/-- A store that an earlier call left complete: the event is emitted although
the export then fails. -/
theorem completed_without_files :
    ¬∀ (stored : LocalInfo) (answers : List (Answer Nat)) (t : Call Nat)
      (result : Except DownloadError ReceiveResult),
      exec (Call.next (String.intercalate "/")) (.start stored (fun _ => none) ["home"]) answers =
        some t →
      t.stage = .returned result → t.MeansOnDisk (String.intercalate "/") (fun _ => none) result := by
  intro h
  have hRun : ∃ t, exec (Call.next (String.intercalate "/"))
        (.start (.complete 2) (fun _ => none) ["home"])
        [.ok, .ok, .ok, .collection [("a.txt", 3)], .exported (.exportFails none), .ok, .ok] =
        some t ∧
      t.stage = .returned (.error (.transfer (.exporting (.errorExporting "a.txt")))) ∧
      Call.completions t.log = 1 := by
    decide
  obtain ⟨t, hRun, hReturned, hOne⟩ := hRun
  have hNone : Call.completions t.log = 0 := h _ _ t _ hRun hReturned
  rw [hOne] at hNone
  cases hNone

end AltSendme.Download
