/-
# TurboNet.Net.Resolve — `InetAddress::Resolve` and the failures of the resolver.

A failure of `getaddrinfo_a` or of `getnameinfo` is reported by `LOG_SYS_ERROR` and was to be
returned as `false`; but that macro passes `false` for `is_abort`, for which the constructor of
`Logger` picks the level that aborts.  A request that fails although `getaddrinfo_a` returns 0 leaves
`ar_result` null, and its `ai_addr` is read all the same.
-/
import TurboNet.Logger.LogStream

namespace TurboNet.Net

open TurboNet.Lib
open TurboNet.Logger

/-- What the resolver answers, with socket addresses of type `α`. -/
structure Resolver (α : Type) where
  /-- `getaddrinfo_a(GAI_WAIT, ..)` for one name: what it returns, and what became of the request, its
  `ar_result` or, with that null, the status `gai_error` would give. -/
  getaddrinfoA : List Logger.Byte → Int32 × Except Int32 α
  /-- `getnameinfo(.., NI_NUMERICHOST)`: what it returns, and the string in `host`. -/
  getnameinfo : α → Int32 × List Logger.Byte
  gaiStrerror : Int32 → List Logger.Byte

/-- The caller's `ip`, and the records logged so far with their levels. -/
structure Resolving where
  ip : List Logger.Byte
  log : List (LogLevel × List Logger.Byte)
  deriving DecidableEq, Repr

namespace Resolving

/-- `LOG_SYS_ERROR << what << ", error = " << reason`. -/
def logSysError (what : String) (reason : List Logger.Byte) : EStateM Halt Resolving Unit := do
  modify fun s => { s with
    log := s.log ++ [(levelOfAbort false, bytesOf what ++ bytesOf ", error = " ++ reason)] }
  check (.aborted what) ((levelOfAbort false).aborts = false)

/-- `req->ar_result`, whose `ai_addr` is read next. -/
def derefResult {α : Type} : Except Int32 α → EStateM Halt Resolving α
  | .ok res => pure res
  | .error _ => throw (.undefined "null ar_result")

/-- `InetAddress::Resolve(host_name, ip)`, the allocation of `req` succeeding. -/
def resolve {α : Type} (R : Resolver α) (hostName : List Logger.Byte) :
    EStateM Halt Resolving Bool := do
  let answer := R.getaddrinfoA (hostName.takeWhile (· ≠ 0))
  if answer.1 ≠ 0 then
    logSysError "getaddrinfo_a" (R.gaiStrerror answer.1)
    pure false
  else
    let res ← derefResult answer.2
    let name := R.getnameinfo res
    if name.1 ≠ 0 then
      logSysError "getnameinfo" (R.gaiStrerror name.1)
      pure false
    else
      modify fun s => { s with ip := name.2 }
      pure true

end Resolving

namespace Resolver

variable {α : Type}

/-- `host` is the numeric address of the name: no call fails, and neither does the request. -/
def Obtains (R : Resolver α) (hostName host : List Logger.Byte) : Prop :=
  ∃ res, R.getaddrinfoA (hostName.takeWhile (· ≠ 0)) = (0, .ok res) ∧
    R.getnameinfo res = (0, host)

/-- What the resolver makes of a name. -/
inductive Outcome (R : Resolver α) (hostName : List Logger.Byte) : Prop
  | callFailed {ret request} (hcall : R.getaddrinfoA (hostName.takeWhile (· ≠ 0)) = (ret, request))
      (hret : ret ≠ 0)
  | requestFailed {status}
      (hcall : R.getaddrinfoA (hostName.takeWhile (· ≠ 0)) = (0, .error status))
  | unnamed {res ret host} (hcall : R.getaddrinfoA (hostName.takeWhile (· ≠ 0)) = (0, .ok res))
      (hname : R.getnameinfo res = (ret, host)) (hret : ret ≠ 0)
  | obtained {host} (hobtains : R.Obtains hostName host)

theorem outcome (R : Resolver α) (hostName : List Logger.Byte) : R.Outcome hostName := by
  rcases hcall : R.getaddrinfoA (hostName.takeWhile (· ≠ 0)) with ⟨ret, request⟩
  by_cases hret : ret = 0
  · subst hret
    rcases request with status | res
    · exact .requestFailed hcall
    · rcases hname : R.getnameinfo res with ⟨ret, host⟩
      by_cases hzero : ret = 0
      · subst hzero
        exact .obtained ⟨res, hcall, hname⟩
      · exact .unnamed hcall hname hzero
  · exact .callFailed hcall hret

end Resolver

namespace Resolving

variable {α : Type} {R : Resolver α} {hostName : List Logger.Byte}

/-- `Resolve` returns, whether an address was obtained decides what, and only in that case `ip` is
another one: the address. -/
def ReportsByResult (R : Resolver α) (hostName : List Logger.Byte) (s : Resolving) : Prop :=
  ∃ b s', (resolve R hostName).run s = .ok b s' ∧
    (b = true ↔ ∃ host, R.Obtains hostName host) ∧
    (b = true → R.Obtains hostName s'.ip) ∧ (b = false → s'.ip = s.ip)

/-- The record `LOG_SYS_ERROR` makes. -/
def logged (s : Resolving) (what : String) (reason : List Logger.Byte) : Resolving :=
  { s with log := s.log ++ [(.fatal, bytesOf what ++ bytesOf ", error = " ++ reason)] }

/-- The record goes out, and the process ends. -/
theorem logSysError_aborts (what : String) (reason : List Logger.Byte) (s : Resolving) :
    (logSysError what reason).run s = .error (.aborted what) (s.logged what reason) := by
  unfold logSysError
  rw [run_modify_bind]
  exact run_check_of_not (by decide)

/-! ## The four ways out -/

theorem resolve_callFailed {ret : Int32} {request : Except Int32 α}
    (hcall : R.getaddrinfoA (hostName.takeWhile (· ≠ 0)) = (ret, request)) (hret : ret ≠ 0)
    (s : Resolving) : (resolve R hostName).run s =
      .error (.aborted "getaddrinfo_a") (s.logged "getaddrinfo_a" (R.gaiStrerror ret)) := by
  unfold resolve
  dsimp only
  rw [hcall, if_pos hret, run_bind_of_error (logSysError_aborts ..)]

theorem resolve_requestFailed {status : Int32}
    (hcall : R.getaddrinfoA (hostName.takeWhile (· ≠ 0)) = (0, .error status)) (s : Resolving) :
    (resolve R hostName).run s = .error (.undefined "null ar_result") s := by
  unfold resolve
  dsimp only
  rw [hcall, if_neg (not_not_intro rfl)]
  rfl

theorem resolve_unnamed {res : α} {ret : Int32} {host : List Logger.Byte}
    (hcall : R.getaddrinfoA (hostName.takeWhile (· ≠ 0)) = (0, .ok res))
    (hname : R.getnameinfo res = (ret, host)) (hret : ret ≠ 0) (s : Resolving) :
    (resolve R hostName).run s =
      .error (.aborted "getnameinfo") (s.logged "getnameinfo" (R.gaiStrerror ret)) := by
  have hres : (derefResult (.ok res)).run s = .ok res s := rfl
  unfold resolve
  dsimp only
  rw [hcall, if_neg (not_not_intro rfl), run_bind_of_ok hres, hname, if_pos hret,
    run_bind_of_error (logSysError_aborts ..)]

theorem resolve_obtained {host : List Logger.Byte} (hobtains : R.Obtains hostName host)
    (s : Resolving) :
    (resolve R hostName).run s = .ok true { s with ip := host } := by
  obtain ⟨res, hcall, hname⟩ := hobtains
  have hres : (derefResult (.ok res)).run s = .ok res s := rfl
  unfold resolve
  dsimp only
  rw [hcall, if_neg (not_not_intro rfl), run_bind_of_ok hres, hname, if_neg (not_not_intro rfl)]
  rfl

theorem not_reportsByResult_of_error {s s' : Resolving} {e : Halt}
    (h : (resolve R hostName).run s = .error e s') : ¬ ReportsByResult R hostName s := by
  rintro ⟨b, s'', hrun, -⟩
  cases hrun.symm.trans h

/-- **When `Resolve` reports by its result.** It does exactly when there is no failure to report. -/
theorem reports_by_result_iff (R : Resolver α) (hostName : List Logger.Byte) (s : Resolving) :
    ReportsByResult R hostName s ↔ ∃ host, R.Obtains hostName host := by
  constructor
  · intro hreports
    -- every failure ends the process before anything is returned
    cases R.outcome hostName with
    | callFailed hcall hret =>
      exact absurd hreports (not_reportsByResult_of_error (resolve_callFailed hcall hret s))
    | requestFailed hcall =>
      exact absurd hreports (not_reportsByResult_of_error (resolve_requestFailed hcall s))
    | unnamed hcall hname hret =>
      exact absurd hreports (not_reportsByResult_of_error (resolve_unnamed hcall hname hret s))
    | obtained hobtains => exact ⟨_, hobtains⟩
  · rintro ⟨host, hobtains⟩
    refine ⟨true, _, resolve_obtained hobtains s, ?_, fun _ => hobtains, nofun⟩
    exact ⟨fun _ => ⟨host, hobtains⟩, fun _ => rfl⟩

/-- A resolver that answers every name alike. -/
def answering (call : Int32 × Except Int32 Unit) (name : Int32 × List Logger.Byte) :
    Resolver Unit where
  getaddrinfoA _ := call
  getnameinfo _ := name
  gaiStrerror _ := bytesOf "error"

/-- The three failures: `EAI_AGAIN` from `getaddrinfo_a`, a request that ends in `EAI_NONAME`, and
`EAI_FAMILY` from `getnameinfo`. -/
theorem failures_not_returned :
    (¬ ReportsByResult (answering (-3, .error (-3)) (0, [])) (bytesOf "a") ⟨[], []⟩ ∧
      ¬ ReportsByResult (answering (0, .error (-2)) (0, [])) (bytesOf "a") ⟨[], []⟩ ∧
      ¬ ReportsByResult (answering (0, .ok ()) (-6, [])) (bytesOf "a") ⟨[], []⟩) ∧
      (resolve (answering (0, .error (-2)) (0, [])) (bytesOf "a")).run ⟨[], []⟩ =
        .error (.undefined "null ar_result") ⟨[], []⟩ := by
  have hcall : (answering (-3, .error (-3)) (0, [])).getaddrinfoA
      ((bytesOf "a").takeWhile (· ≠ 0)) = (-3, .error (-3)) := rfl
  have hrequest : (answering (0, .error (-2)) (0, [])).getaddrinfoA
      ((bytesOf "a").takeWhile (· ≠ 0)) = (0, .error (-2)) := rfl
  have hres : (answering (0, .ok ()) (-6, [])).getaddrinfoA
      ((bytesOf "a").takeWhile (· ≠ 0)) = (0, .ok ()) := rfl
  have hname : (answering (0, .ok ()) (-6, [])).getnameinfo () = (-6, []) := rfl
  have hundefined := resolve_requestFailed hrequest ⟨[], []⟩
  refine ⟨⟨?_, ?_, ?_⟩, hundefined⟩
  · exact not_reportsByResult_of_error (resolve_callFailed hcall (by decide) ⟨[], []⟩)
  · exact not_reportsByResult_of_error hundefined
  · exact not_reportsByResult_of_error (resolve_unnamed hres hname (by decide) ⟨[], []⟩)

end Resolving

end TurboNet.Net
