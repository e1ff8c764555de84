/-
Sentinel.Core.TranscriptStore — `LocalTranscriptStore`: evidence in files
named by the hash of their content, and what a crash does to them.

A process may crash at any moment of a call and start again on the same
directory. `putMoments` lists the states of the directory that `put` goes
through. SHA-256 is a parameter: a function to texts of 64 hex digits.
-/
import Sentinel.Py.Codec
import Sentinel.Trace.History
import Mathlib.Logic.Function.Basic

namespace Sentinel.Core

open Sentinel.Py Sentinel.Trace

/-! ## Ids and paths -/

def hexDigits : Str := "0123456789abcdef".toList

/-- The text of a SHA-256 digest. `put` returns nothing else, and `get` is
asked for what `put` returned or for another digest, not for any text. -/
structure TranscriptId where
  text : Str
  hex : text.length = 64 ∧ ∀ c ∈ text, c ∈ hexDigits
  deriving DecidableEq

/-- `hashlib.sha256(content).hexdigest()`. -/
class Sha256 where
  hexdigest : List UInt8 → TranscriptId

/-- A file under `base_path`. -/
structure StorePath where
  shard : Str
  name : Str
  deriving DecidableEq

/-- `_path_for`. -/
def pathFor (transcriptId : TranscriptId) : StorePath :=
  ⟨transcriptId.text.take 2, transcriptId.text ++ ".bin".toList⟩

theorem pathFor_inj {id id' : TranscriptId} (h : pathFor id = pathFor id') : id = id' := by
  have htext : id.text = id'.text := List.append_cancel_right (StorePath.mk.inj h).2
  cases id
  cases id'
  subst htext
  rfl

/-! ## The directory -/

/-- The files of the directory and their contents. The shard directories
do not show: `put` makes the one it needs before it looks. -/
abbrev Disk := StorePath → Option (List UInt8)

/-- An empty directory. -/
def emptyDisk : Disk := fun _ => none

inductive StoreError where
  /-- `FileNotFoundError`, with its message. -/
  | fileNotFound (message : Str)
  deriving DecidableEq, Repr

/-- `get`. -/
def storeGet (disk : Disk) (transcriptId : TranscriptId) : Except StoreError (List UInt8) :=
  match disk (pathFor transcriptId) with
  | none => .error (.fileNotFound ("No transcript stored for id ".toList ++ transcriptId.text))
  | some content => .ok content

section

variable [Sha256]

/-- `content_id`. -/
def contentId (content : List UInt8) : TranscriptId := Sha256.hexdigest content

/-- The moments of `put`, in order: up to the look at the path nothing has
changed, then `write_bytes` has created the file and writes on to its end. -/
def putMoments (disk : Disk) (content : List UInt8) : List Disk :=
  let path := pathFor (contentId content)
  if (disk path).isSome then [disk]
  else disk :: (List.range (content.length + 1)).map
    fun written => Function.update disk path (some (content.take written))

/-- `put`: the id it returns and the directory it leaves. -/
def storePut (disk : Disk) (content : List UInt8) : TranscriptId × Disk :=
  (contentId content, (putMoments disk content).getLastD disk)

theorem putMoments_of_exists {disk : Disk} {content : List UInt8}
    (h : disk (pathFor (contentId content)) ≠ none) : putMoments disk content = [disk] := by
  rw [putMoments, if_pos (Option.isSome_iff_ne_none.mpr h)]

theorem putMoments_of_absent {disk : Disk} {content : List UInt8}
    (h : disk (pathFor (contentId content)) = none) :
    putMoments disk content = disk :: (List.range (content.length + 1)).map
      fun written => Function.update disk (pathFor (contentId content))
        (some (content.take written)) := by
  simp [putMoments, h]

/-- A `put` that returns has written the whole content, or found a file. -/
theorem storePut_disk (disk : Disk) (content : List UInt8) :
    (storePut disk content).2 = if disk (pathFor (contentId content)) = none
      then Function.update disk (pathFor (contentId content)) (some content) else disk := by
  by_cases h : disk (pathFor (contentId content)) = none
  · rw [storePut, putMoments_of_absent h, if_pos h, List.range_succ, List.map_append,
      ← List.cons_append, List.map_singleton, List.getLastD_concat, List.take_length]
  · rw [storePut, putMoments_of_exists h, if_neg h]
    rfl

/-! ## Runs with crashes -/

/-- A call on the store. -/
inductive StoreCall where
  | put (content : List UInt8)
  | get (transcriptId : TranscriptId)
  deriving DecidableEq

/-- A call that comes to its end, or one in which the process crashes after
that many moments; then it starts again. -/
inductive StoreEvent where
  | done (call : StoreCall)
  | crash (call : StoreCall) (moment : Nat)
  deriving DecidableEq

inductive StoreResult where
  | stored (transcriptId : TranscriptId)
  | retrieved (content : List UInt8)
  | raised (error : StoreError)
  | crashed
  deriving DecidableEq

def StoreResult.ofGet : Except StoreError (List UInt8) → StoreResult
  | .ok content => .retrieved content
  | .error error => .raised error

/-- What an event gives its caller, and the directory after it. -/
def perform (disk : Disk) : StoreEvent → StoreResult × Disk
  | .done (.put content) => (.stored (storePut disk content).1, (storePut disk content).2)
  | .done (.get transcriptId) => (.ofGet (storeGet disk transcriptId), disk)
  | .crash (.put content) moment =>
      (.crashed, (putMoments disk content)[moment]?.getD (storePut disk content).2)
  | .crash (.get _) _ => (.crashed, disk)

abbrev StoreEntry := Entry Disk StoreEvent StoreResult

/-- What happens on an empty directory. -/
def storeRun (events : List StoreEvent) : List StoreEntry := history perform emptyDisk events

/-- The content an event puts, or tries to. -/
def StoreEvent.content : StoreEvent → Option (List UInt8)
  | .done (.put content) => some content
  | .crash (.put content) _ => some content
  | _ => none

/-- Evidence once acknowledged is retrieved intact, and an id under which
nothing was put is not found. -/
structure Intact (past : List StoreEntry) : Prop where
  retrieved : ∀ earlier e later, past = earlier ++ e :: later →
    ∀ content transcriptId, e.call = .done (.put content) → e.result = .stored transcriptId →
      ∀ e' ∈ later, e'.call = .done (.get transcriptId) → e'.result = .retrieved content
  absent : ∀ earlier e later, past = earlier ++ e :: later →
    ∀ transcriptId, e.call = .done (.get transcriptId) →
      (∀ e' ∈ earlier, ∀ content, e'.call.content = some content →
        contentId content ≠ transcriptId) →
      ∃ message, e.result = .raised (.fileNotFound message)

/-- SHA-256 does not collide on the contents of these events. -/
def CollisionFree (events : List StoreEvent) : Prop :=
  ∀ event ∈ events, ∀ event' ∈ events, ∀ content content',
    event.content = some content → event'.content = some content' →
      contentId content = contentId content' → content = content'

/-- The crash falls inside `write_bytes`: the file is there, and something
of its content is missing. -/
def Tears (disk : Disk) : StoreEvent → Prop
  | .crash (.put content) moment =>
      disk (pathFor (contentId content)) = none ∧ 0 < moment ∧ moment ≤ content.length
  | _ => False

/-! ## The directory and the past -/

/-- **What an event does to the directory**, if it does not tear a file. -/
theorem perform_disk {disk : Disk} {event : StoreEvent} (h : ¬ Tears disk event) :
    (perform disk event).2 = disk ∨ ∃ content, event.content = some content ∧
      disk (pathFor (contentId content)) = none ∧
      (perform disk event).2 =
        Function.update disk (pathFor (contentId content)) (some content) := by
  match event with
  | .done (.put content) =>
    by_cases habsent : disk (pathFor (contentId content)) = none
    · refine .inr ⟨content, rfl, habsent, ?_⟩
      show (storePut disk content).2 = _
      rw [storePut_disk, if_pos habsent]
    · refine .inl ?_
      show (storePut disk content).2 = _
      rw [storePut_disk, if_neg habsent]
  | .done (.get _) => exact .inl rfl
  | .crash (.put content) moment =>
    show (putMoments disk content)[moment]?.getD (storePut disk content).2 = disk ∨ ∃ content',
      some content = some content' ∧ disk (pathFor (contentId content')) = none ∧
      (putMoments disk content)[moment]?.getD (storePut disk content).2 =
        Function.update disk (pathFor (contentId content')) (some content')
    rw [storePut_disk]
    by_cases habsent : disk (pathFor (contentId content)) = none
    · rw [putMoments_of_absent habsent, if_pos habsent]
      cases moment with
      | zero => exact .inl rfl
      | succ written =>
        have hall : content.length ≤ written := by
          by_contra hinside
          exact h ⟨habsent, by omega, by omega⟩
        refine .inr ⟨content, rfl, habsent, ?_⟩
        rw [List.getElem?_cons_succ, List.getElem?_map]
        by_cases hlast : written < content.length + 1
        · rw [List.getElem?_range hlast, Option.map_some, Option.getD_some,
            List.take_of_length_le hall]
        · rw [List.getElem?_eq_none (by simpa using hlast)]
          rfl
    · rw [putMoments_of_exists habsent, if_neg habsent]
      cases moment <;> exact .inl rfl
  | .crash (.get _) _ => exact .inl rfl

/-- Every file is complete, and there is one for everything acknowledged. -/
structure Sound (past : List StoreEntry) (disk : Disk) : Prop where
  complete : ∀ path content, disk path = some content →
    ∃ e ∈ past, e.call.content = some content ∧ path = pathFor (contentId content)
  present : ∀ e ∈ past, ∀ content, e.call = .done (.put content) →
    disk (pathFor (contentId content)) ≠ none

/-- An acknowledged `put` leaves a file. -/
theorem perform_put_present (disk : Disk) (content : List UInt8) :
    (perform disk (.done (.put content))).2 (pathFor (contentId content)) ≠ none := by
  show (storePut disk content).2 (pathFor (contentId content)) ≠ none
  rw [storePut_disk]
  split
  · simp
  · assumption

/-- Files do not go away. -/
theorem perform_present {disk : Disk} {event : StoreEvent} {path : StorePath}
    (htears : ¬ Tears disk event) (h : disk path ≠ none) : (perform disk event).2 path ≠ none := by
  rcases perform_disk htears with heq | ⟨content, -, -, heq⟩
  · rw [heq]
    exact h
  · rw [heq, Function.update_apply]
    split
    · simp
    · exact h

theorem Sound.step {past : List StoreEntry} {disk : Disk} {event : StoreEvent}
    (h : Sound past disk) (htears : ¬ Tears disk event) :
    Sound (past ++ [entry perform disk event]) (perform disk event).2 where
  complete := by
    intro path content hfile
    rcases perform_disk htears with heq | ⟨content', hcontent', -, heq⟩
    · rw [heq] at hfile
      obtain ⟨e, he, hcall⟩ := h.complete path content hfile
      exact ⟨e, List.mem_append_left _ he, hcall⟩
    · rw [heq, Function.update_apply] at hfile
      split at hfile
      case isTrue hpath =>
        cases hfile
        exact ⟨entry perform disk event, by simp, hcontent', hpath⟩
      case isFalse =>
        obtain ⟨e, he, hcall⟩ := h.complete path content hfile
        exact ⟨e, List.mem_append_left _ he, hcall⟩
  present := by
    intro e he content hcall
    rcases List.mem_append.mp he with he | he
    · exact perform_present htears (h.present e he content hcall)
    · rw [List.mem_singleton.mp he] at hcall
      have hevent : event = .done (.put content) := hcall
      subst hevent
      exact perform_put_present disk content

theorem Sound.empty : Sound [] emptyDisk where
  complete := by
    intro path content hfile
    cases hfile
  present := by
    intro e he
    cases he

/-- Where no file is torn, every entry of a run has met a sound directory. -/
theorem storeRun_sound {events : List StoreEvent}
    (hclean : ∀ e ∈ storeRun events, ¬ Tears e.before e.call) {earlier later : List StoreEntry}
    {e : StoreEntry} (h : storeRun events = earlier ++ e :: later) :
    Sound earlier e.before ∧ e.result = (perform e.before e.call).1 := by
  obtain ⟨before, event, after, rfl, rfl, rfl, -⟩ := history_split h
  have hbefore : ∀ e ∈ history perform emptyDisk before, ¬ Tears e.before e.call := by
    intro e he
    exact hclean e (by rw [h]; exact List.mem_append_left _ he)
  exact ⟨history_rule_of Sound.empty (fun past disk event => Sound.step) hbefore, rfl⟩

/-- What was acknowledged, a sound directory gives back. -/
theorem Sound.get {past : List StoreEntry} {disk : Disk} {content : List UInt8}
    {e : StoreEntry} (h : Sound past disk) (he : e ∈ past) (hput : e.call = .done (.put content))
    (hcollision : CollisionFree (past.map Entry.call)) :
    storeGet disk (contentId content) = .ok content := by
  obtain ⟨stored, hfile⟩ := Option.ne_none_iff_exists'.mp (h.present e he content hput)
  obtain ⟨e', he', hcontent, hpath⟩ := h.complete _ _ hfile
  have hsame : content = stored :=
    hcollision _ (List.mem_map_of_mem he) _ (List.mem_map_of_mem he') content stored
      (by rw [hput]; rfl) hcontent (pathFor_inj hpath)
  rw [storeGet, hfile, hsame]

/-- What nothing was put under, a sound directory does not have. -/
theorem Sound.get_absent {past : List StoreEntry} {disk : Disk} {transcriptId : TranscriptId}
    (h : Sound past disk) (habsent : ∀ e ∈ past, ∀ content, e.call.content = some content →
      contentId content ≠ transcriptId) :
    ∃ message, storeGet disk transcriptId = .error (.fileNotFound message) := by
  cases hfile : disk (pathFor transcriptId) with
  | none => exact ⟨_, by rw [storeGet, hfile]⟩
  | some content =>
    obtain ⟨e, he, hcontent, hpath⟩ := h.complete _ _ hfile
    exact absurd (pathFor_inj hpath).symm (habsent e he content hcontent)

/-- **Evidence is retrieved intact** in every run in which no crash tears a
file. -/
theorem storeRun_intact (events : List StoreEvent) (hcollision : CollisionFree events)
    (hclean : ∀ e ∈ storeRun events, ¬ Tears e.before e.call) : Intact (storeRun events) where
  retrieved := by
    intro earlier e later hsplit content transcriptId hput hstored e' he' hget
    obtain ⟨between, rest, rfl⟩ := List.append_of_mem he'
    have hid : contentId content = transcriptId := by
      obtain ⟨-, hresult⟩ := storeRun_sound hclean hsplit
      rw [hput, hstored] at hresult
      exact (StoreResult.stored.inj hresult).symm
    have hsplit' : storeRun events = (earlier ++ e :: between) ++ e' :: rest := by
      rw [hsplit, List.append_assoc, List.cons_append]
    obtain ⟨hsound, hresult⟩ := storeRun_sound hclean hsplit'
    have hcalls : CollisionFree ((earlier ++ e :: between).map Entry.call) := by
      intro event hevent event' hevent'
      refine hcollision event ?_ event' ?_
      all_goals
        rw [← history_calls perform emptyDisk events, show history _ _ _ = _ from hsplit',
          List.map_append]
        exact List.mem_append_left _ (by assumption)
    rw [hresult, hget, ← hid]
    show StoreResult.ofGet (storeGet e'.before (contentId content)) = .retrieved content
    rw [hsound.get (by simp) hput hcalls]
    rfl
  absent := by
    intro earlier e later hsplit transcriptId hget habsent
    obtain ⟨hsound, hresult⟩ := storeRun_sound hclean hsplit
    obtain ⟨message, hmissing⟩ := hsound.get_absent habsent
    refine ⟨message, ?_⟩
    rw [hresult, hget]
    show StoreResult.ofGet (storeGet e.before transcriptId) = .raised (.fileNotFound message)
    rw [hmissing]
    rfl

end

theorem hexDigit_mem : ∀ n < 16, hexDigit n ∈ hexDigits := by decide

/-- The digest with this value. -/
def digestOf (value : Nat) : TranscriptId where
  text := hexPad 64 value
  hex := by
    refine ⟨by simp [hexPad], fun c hc => ?_⟩
    obtain ⟨i, -, rfl⟩ := List.mem_map.mp hc
    exact hexDigit_mem _ (Nat.mod_lt _ (by decide))

/-- Digests differ if their last digits do. -/
theorem digestOf_ne {n m : Nat} (h : hexDigit (n % 16) ≠ hexDigit (m % 16)) :
    digestOf n ≠ digestOf m := by
  intro heq
  have htext : hexPad 64 n = hexPad 64 m := congrArg TranscriptId.text heq
  have hdigits := List.map_inj_left.mp htext 0 (by simp)
  simp only [pow_zero, Nat.div_one] at hdigits
  exact h hdigits

/-- The digest of the bytes 1 and 2. -/
def digestOneTwo : TranscriptId :=
  digestOf 0xa12871fee210fb8619291eaea194581cbd2531e4b23759d225f6806923f63222

/-- The digest of the byte 3. -/
def digestThree : TranscriptId :=
  digestOf 0x084fed08b978af4d7d196a7446a86b58009e636b611db16211b65a9aadff29c5

theorem digestOneTwo_ne : digestOneTwo ≠ digestThree := digestOf_ne (by decide +kernel)

/-- SHA-256 on the contents of the runs below. -/
@[reducible] def knownDigests : Sha256 where
  hexdigest content := if content = [1, 2] then digestOneTwo else digestThree

/-- A crash before the file is made, then the same `put` again. -/
theorem crashedPut_intact : let _ := knownDigests
    Intact (storeRun [.crash (.put [1, 2]) 0, .done (.put [1, 2]), .done (.put [3]),
      .done (.get (contentId [1, 2]))]) := by
  refine @storeRun_intact knownDigests _ ?_ ?_
  · intro event hevent event' hevent' content content' hcontent hcontent' hsame
    have hput : content = [1, 2] ∨ content = [3] := by
      simp only [List.mem_cons, List.not_mem_nil, or_false] at hevent
      rcases hevent with rfl | rfl | rfl | rfl <;> cases hcontent <;> simp
    have hput' : content' = [1, 2] ∨ content' = [3] := by
      simp only [List.mem_cons, List.not_mem_nil, or_false] at hevent'
      rcases hevent' with rfl | rfl | rfl | rfl <;> cases hcontent' <;> simp
    rcases hput with rfl | rfl <;> rcases hput' with rfl | rfl
    · rfl
    · exact absurd hsame digestOneTwo_ne
    · exact absurd hsame digestOneTwo_ne.symm
    · rfl
  · intro e he
    simp only [storeRun, history, List.mem_cons, List.not_mem_nil, or_false] at he
    rcases he with rfl | rfl | rfl | rfl <;> simp [entry, Tears]

/-- A crash in the middle of `write_bytes`: the next `put` of the content
finds the file and acknowledges it, and `get` gives back what is there. -/
theorem tornPut_not_intact : let _ := knownDigests
    let events := [.crash (.put [1, 2]) 2, .done (.put [1, 2]),
      .done (.get (contentId [1, 2]))]
    CollisionFree events ∧ ¬ Intact (storeRun events) := by
  intro hash events
  constructor
  · intro event hevent event' hevent' content content' hcontent hcontent' _
    simp only [events, List.mem_cons, List.not_mem_nil, or_false] at hevent hevent'
    rcases hevent with rfl | rfl | rfl <;> rcases hevent' with rfl | rfl | rfl <;>
      cases hcontent <;> cases hcontent' <;> rfl
  · intro h
    have hfirst : (perform emptyDisk (.crash (.put [1, 2]) 2)).2 =
        Function.update emptyDisk (pathFor (contentId [1, 2])) (some [1]) := by
      simp [perform, putMoments, emptyDisk, List.range_succ]
    have hsecond : (storePut (perform emptyDisk (.crash (.put [1, 2]) 2)).2 [1, 2]).2 =
        Function.update emptyDisk (pathFor (contentId [1, 2])) (some [1]) := by
      rw [hfirst, storePut_disk, if_neg (by simp)]
    have hget := h.retrieved [_] _ [_] rfl [1, 2] (contentId [1, 2]) rfl rfl _
      (List.mem_singleton_self _) rfl
    have hread : StoreResult.ofGet (storeGet (storePut (perform emptyDisk
        (.crash (.put [1, 2]) 2)).2 [1, 2]).2 (contentId [1, 2])) = .retrieved [1, 2] := hget
    rw [hsecond] at hread
    simp [storeGet, StoreResult.ofGet] at hread

end Sentinel.Core
