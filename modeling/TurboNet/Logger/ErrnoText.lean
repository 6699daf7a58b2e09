/-
# TurboNet.Logger.ErrnoText — the text a record gives for an `errno`.

`StrErrorR` calls GNU `strerror_r` and returns its own thread-local buffer.  That `strerror_r`
returns a pointer to the message and writes to the buffer only for some numbers, such as those it
does not know; for the others `StrErrorR` returns what an earlier call has left there.
-/
import TurboNet.Lib.LastValue
import TurboNet.Logger.Record

namespace TurboNet.Logger

open TurboNet.Lib
open LogStream

/-- GNU `strerror_r`: the message of each number, and whether it writes that message to the buffer of
its caller or has it somewhere else. -/
structure StrError where
  message : Int32 → List Byte
  writesBuffer : Int32 → Bool

namespace StrError

/-- `sizeof(t_erno_buf)`. -/
def bufferSize : Nat := 512

/-- `strerror_r(errnum, buf, buflen)`: the string in `buf` afterwards, and the one at the pointer it
returns. -/
def strerrorR (G : StrError) (errnum : Int32) (buflen : Nat) (buf : List Byte) :
    List Byte × List Byte :=
  if G.writesBuffer errnum then
    let written := (G.message errnum).take (buflen - 1)
    (written, written)
  else
    (buf, G.message errnum)

/-- `StrErrorR(errno_info)`, on the string in `t_erno_buf`. -/
def strErrorR (G : StrError) (errnoInfo : Int32) : EStateM Halt (List Byte) (List Byte) := do
  modify fun buf => (G.strerrorR errnoInfo bufferSize buf).1
  get

/-- Each call on the thread returns the message of its own number, and a record of the number, if it
is not 0, gives that message and no other. -/
def NamesOwn (G : StrError) (errnos : List Int32) : Prop :=
  ∃ texts buf, (errnos.mapM G.strErrorR).run [] = .ok texts buf ∧ texts = errnos.map G.message ∧
    ∀ e text, (e, text) ∈ errnos.zip texts → e ≠ 0 → ∀ ctx logLevel file line other,
      Insertion.charPtr (some other) ∈ implInsertions ctx logLevel e text file line ↔
        other = G.message e

variable {G : StrError}

/-- What a number writes to the buffer, if it does. -/
def stored (G : StrError) (e : Int32) : List Byte := (G.message e).take (bufferSize - 1)

/-- What the numbers before have left in the buffer. -/
def left (G : StrError) (before : List Int32) : List Byte :=
  ((before.filter G.writesBuffer).getLast?.map G.stored).getD []

/-- The buffer shows the message of `e`: either `e` writes it there and it fits, or it is what is
there already. -/
def Shows (G : StrError) (before : List Int32) (e : Int32) : Prop :=
  if G.writesBuffer e then (G.message e).length < bufferSize else G.left before = G.message e

theorem run_strErrorR (G : StrError) (e : Int32) (buf : List Byte) :
    (G.strErrorR e).run buf =
      .ok (keep G.writesBuffer G.stored buf e) (keep G.writesBuffer G.stored buf e) := by
  have hbuf : (G.strerrorR e bufferSize buf).1 = keep G.writesBuffer G.stored buf e := by
    unfold strerrorR keep
    split
    · rfl
    · rfl
  rw [← hbuf]
  rfl

/-- The string returned after `before` is the message exactly when the buffer shows it. -/
theorem keep_eq_message_iff (G : StrError) (before : List Int32) (e : Int32) :
    keep G.writesBuffer G.stored (before.foldl (keep G.writesBuffer G.stored) []) e = G.message e ↔
      G.Shows before e := by
  have hpos : 0 < bufferSize := by decide
  unfold Shows
  rw [foldl_keep, keep]
  by_cases he : G.writesBuffer e = true
  · rw [if_pos he, if_pos he, stored, List.take_eq_self_iff]
    omega
  · rw [if_neg he, if_neg he, left]

theorem charPtr_mem_implInsertions {ctx : Context} {logLevel : LogLevel} {e : Int32}
    {text file other : List Byte} {line : Int32} :
    Insertion.charPtr (some other) ∈ implInsertions ctx logLevel e text file line ↔
      e ≠ 0 ∧ other = text := by
  unfold implInsertions formatTime SourceFile.insertion
  by_cases he : e = 0
  · simp [he]
  · simp [he]

/-- The calls on a thread whose buffer the numbers `before` have left. -/
theorem texts_eq_iff (G : StrError) (errnos before : List Int32) :
    ∃ texts buf, (errnos.mapM G.strErrorR).run
        (before.foldl (keep G.writesBuffer G.stored) []) = .ok texts buf ∧
      (texts = errnos.map G.message ↔
        ∀ pre e post, errnos = pre ++ e :: post → G.Shows (before ++ pre) e) := by
  induction errnos generalizing before with
  | nil =>
    refine ⟨[], _, rfl, iff_of_true rfl ?_⟩
    intro pre e post h
    exact absurd h.symm (by simp)
  | cons e errnos ih =>
    obtain ⟨texts, buf, hrun, hiff⟩ := ih (before ++ [e])
    rw [List.foldl_append, List.foldl_cons, List.foldl_nil] at hrun
    refine ⟨keep G.writesBuffer G.stored (before.foldl (keep G.writesBuffer G.stored) []) e :: texts,
      buf, ?_, ?_⟩
    · rw [List.mapM_cons, run_bind_of_ok (run_strErrorR G e _), run_bind_of_ok hrun]
      rfl
    · rw [List.map_cons, List.cons.injEq, keep_eq_message_iff, hiff]
      constructor
      · rintro ⟨hfirst, hrest⟩ pre e' post hsplit
        rcases List.cons_eq_append_iff.mp hsplit with ⟨rfl, hcons⟩ | ⟨pre', rfl, hmore⟩
        · obtain ⟨rfl, rfl⟩ := List.cons.inj hcons
          rwa [List.append_nil]
        · have hshows := hrest pre' e' post hmore
          rwa [List.append_assoc] at hshows
      · intro h
        constructor
        · have hshows := h [] e errnos rfl
          rwa [List.append_nil] at hshows
        · intro pre e' post hsplit
          have hshows := h (e :: pre) e' post (by rw [hsplit, List.cons_append])
          rwa [List.append_assoc]

/-- **When the texts of errnos are their own.** -/
theorem names_own_iff (G : StrError) (errnos : List Int32) :
    G.NamesOwn errnos ↔ ∀ pre e post, errnos = pre ++ e :: post → G.Shows pre e := by
  obtain ⟨texts, buf, hrun, hiff⟩ := texts_eq_iff G errnos []
  constructor
  · rintro ⟨texts', buf', hrun', htexts, -⟩
    have hsame := hrun.symm.trans hrun'
    cases hsame
    exact hiff.mp htexts
  · intro hshows
    have htexts := hiff.mpr hshows
    refine ⟨texts, buf, hrun, htexts, ?_⟩
    intro e text hmem he ctx logLevel file line other
    have hown : text = G.message e := by
      rw [htexts, List.zip_eq_zipWith, List.zipWith_map_right, List.zipWith_self,
        List.mem_map] at hmem
      obtain ⟨e', -, hpair⟩ := hmem
      cases hpair
      rfl
    rw [charPtr_mem_implInsertions, hown]
    exact ⟨And.right, fun h => ⟨he, h⟩⟩

/-- Two numbers glibc knows, and the message it makes for any other. -/
def glibc : StrError where
  message e :=
    if e = 2 then bytesOf "No such file or directory"
    else if e = 13 then bytesOf "Permission denied"
    else bytesOf "Unknown error " ++ intText e.toInt
  writesBuffer e := e ≠ 2 ∧ e ≠ 13

/-- A number glibc does not know, then one it knows, and that one alone. -/
theorem known_errno_not_named :
    (([134, 2].mapM glibc.strErrorR).run [] = .ok
        [bytesOf "Unknown error 134", bytesOf "Unknown error 134"] (bytesOf "Unknown error 134") ∧
      ([2].mapM glibc.strErrorR).run [] = .ok [[]] []) ∧
      ¬ glibc.NamesOwn [134, 2] ∧ ¬ glibc.NamesOwn [2] := by
  have hstale : ([134, 2].mapM glibc.strErrorR).run [] = .ok
      [bytesOf "Unknown error 134", bytesOf "Unknown error 134"] (bytesOf "Unknown error 134") := by
    have hunknown : keep glibc.writesBuffer glibc.stored [] 134 = bytesOf "Unknown error 134" := by
      decide
    have hkept : keep glibc.writesBuffer glibc.stored (bytesOf "Unknown error 134") 2 =
        bytesOf "Unknown error 134" := if_neg (by decide)
    rw [List.mapM_cons, run_bind_of_ok (run_strErrorR glibc 134 []), hunknown, List.mapM_cons,
      bind_assoc, run_bind_of_ok (run_strErrorR glibc 2 _), hkept]
    rfl
  have hempty : ([2].mapM glibc.strErrorR).run [] = .ok [[]] [] := by
    have hkept : keep glibc.writesBuffer glibc.stored [] 2 = [] := if_neg (by decide)
    rw [List.mapM_cons, run_bind_of_ok (run_strErrorR glibc 2 []), hkept]
    rfl
  refine ⟨⟨hstale, hempty⟩, ?_, ?_⟩
  · rintro ⟨texts, buf, hrun, htexts, -⟩
    cases hstale.symm.trans hrun
    exact absurd htexts (by decide)
  · rintro ⟨texts, buf, hrun, htexts, -⟩
    cases hempty.symm.trans hrun
    exact absurd htexts (by decide)

end StrError

end TurboNet.Logger
