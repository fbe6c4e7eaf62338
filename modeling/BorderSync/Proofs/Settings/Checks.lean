/-
# BorderSync.Proofs.Settings.Checks -- which fault of arguments is reported

Arguments may be wrong in several ways at once; one fault is reported. Each **check** says for itself what
is wrong, whatever the others find: the mode, the three files, the jitter, the numbers of workers, and the
waits of the two queues. Reading settings makes the checks in this order and reports what the first one
finds that finds anything. Settings that pass them all are those that the arguments ask for.
-/
import BorderSync.Proofs.Text.Blank
import BorderSync.Settings.FromArguments

namespace BorderSync.Settings

/-- **Check** of arguments. -/
inductive Check where
  | tlsMode
  | caFile
  | clientFile
  | keyFile
  | jitter
  | threads
  | inboundBackoff
  | outboundBackoff
  deriving DecidableEq, Repr

/-- All checks, in the order in which they are made. -/
def Check.all : List Check :=
  [.tlsMode, .caFile, .clientFile, .keyFile, .jitter, .threads, .inboundBackoff, .outboundBackoff]

variable {read : String → Except OsFault (List UInt8)} {a : Arguments}

/-- What is wrong with a file that is asked for. -/
def fileFault? (read : String → Except OsFault (List UInt8)) (path : Option String) : Option Error :=
  path.bind fun path =>
    match read path with
    | .ok _ => none
    | .error fault => some (.os fault)

/-- What is wrong with the waits of a queue, in milliseconds. -/
def waitsFault? (name : String) (base max : Nat) : Option Error :=
  if max < base then some (.backoffInverted name (.ofMillis base) (.ofMillis max)) else none

/-- **The fault that a check finds** by itself. -/
def Check.fault? (read : String → Except OsFault (List UInt8)) (a : Arguments) : Check → Option Error
  | .tlsMode =>
    if Text.lower (Text.trim a.tlsMode) ∈ TlsMode.names.map Prod.fst then none
    else some (.unknownTlsMode (Text.lower (Text.trim a.tlsMode)))
  | .caFile => fileFault? read a.caCertificate
  | .clientFile => fileFault? read a.clientCertificate
  | .keyFile => fileFault? read a.clientKey
  | .jitter => if a.maxJitter < a.minJitter then some (.jitterInverted a.minJitter a.maxJitter) else none
  | .threads => if a.inboundThreads = 0 ∨ a.outboundThreads = 0 then some .noWorkers else none
  | .inboundBackoff => waitsFault? "nlk-handler" a.inboundBase a.inboundMax
  | .outboundBackoff => waitsFault? "nlk-synchronizer" a.outboundBase a.outboundMax

/-! ## What stops a chain of checks -/

section Failure

variable {α β : Type}

/-- The failure of a result. -/
def failure? : Except Error α → Option Error
  | .ok _ => none
  | .error e => some e

theorem failure?_eq_some {x : Except Error α} {e : Error} : failure? x = some e ↔ x = .error e := by
  cases x <;> simp [failure?]

theorem failure?_eq_none {x : Except Error α} : failure? x = none ↔ ∃ v, x = .ok v := by
  cases x <;> simp [failure?]

/-- What fails first counts, if what comes afterwards fails in one way. -/
theorem failure?_bind {x : Except Error α} {f : α → Except Error β} {r : Option Error}
    (h : ∀ v, failure? (f v) = r) : failure? (x >>= f) = (failure? x).or r := by
  cases x with
  | ok v => exact h v
  | error e => rfl

/-- A chain of results is one of its links after the other. -/
theorem of_bind_ok {x : Except Error α} {f : α → Except Error β} {r : β} (h : x >>= f = .ok r) :
    ∃ v, x = .ok v ∧ f v = .ok r := by
  cases x with
  | ok v => exact ⟨v, rfl, h⟩
  | error e => cases h

end Failure

theorem failure?_ofName (read : String → Except OsFault (List UInt8)) (a : Arguments) :
    failure? (TlsMode.ofName a.tlsMode) = Check.tlsMode.fault? read a := by
  unfold TlsMode.ofName Check.fault?
  generalize Text.lower (Text.trim a.tlsMode) = name
  cases hlookup : TlsMode.names.lookup name with
  | some mode =>
    have hmem : name ∈ TlsMode.names.map Prod.fst := by
      obtain ⟨before, after, hnames, -⟩ := List.lookup_eq_some_iff.mp hlookup
      rw [hnames]
      simp
    simp only [hlookup, if_pos hmem]
    rfl
  | none =>
    have hmem : name ∉ TlsMode.names.map Prod.fst := by
      rintro hmem
      obtain ⟨e, he, rfl⟩ := List.mem_map.mp hmem
      exact absurd (List.lookup_eq_none_iff.mp hlookup e he) (by simp)
    simp only [hlookup, if_neg hmem]
    rfl

theorem failure?_readFile? (path : Option String) : failure? (readFile? read path) = fileFault? read path := by
  cases path with
  | none => rfl
  | some path =>
    unfold readFile? fileFault?
    cases hread : read path <;> simp [hread, failure?]

theorem backoffError?_ofMillis (name : String) (base max : Nat) :
    backoffError? ⟨name, .ofMillis base, .ofMillis max⟩ = waitsFault? name base max := by
  have hlt : (Duration.ofMillis max).nanos < (Duration.ofMillis base).nanos ↔ max < base :=
    Nat.mul_lt_mul_right (by decide)
  unfold backoffError? waitsFault?
  simp only [hlt]

/-- The checks of consistency depend on numbers only. -/
theorem failure?_validated (read : String → Except OsFault (List UInt8)) (mode : TlsMode)
    (certificates : Certificates) :
    failure? (assemble a mode certificates).validated =
      (Check.jitter.fault? read a).or ((Check.threads.fault? read a).or
        ((Check.inboundBackoff.fault? read a).or (Check.outboundBackoff.fault? read a))) := by
  have hvalidate : failure? (assemble a mode certificates).validated
      = (assemble a mode certificates).validate? := by
    unfold validated
    cases (assemble a mode certificates).validate? <;> rfl
  have hqueues : (backoffError? (assemble a mode certificates).inbound.queue <|>
      backoffError? (assemble a mode certificates).outbound.queue) =
        (Check.inboundBackoff.fault? read a).or (Check.outboundBackoff.fault? read a) := by
    unfold assemble
    rw [backoffError?_ofMillis, backoffError?_ofMillis, Option.orElse_eq_orElse, ← Option.or_eq_orElse]
    rfl
  rw [hvalidate, validate?, hqueues]
  show (if a.maxJitter < a.minJitter then _ else if a.inboundThreads = 0 ∨ a.outboundThreads = 0 then _ else _) = _
  unfold Check.fault?
  by_cases hjitter : a.maxJitter < a.minJitter
  · simp only [if_pos hjitter, Option.some_or]
    rfl
  · by_cases hthreads : a.inboundThreads = 0 ∨ a.outboundThreads = 0
    · simp only [if_neg hjitter, if_pos hthreads, Option.none_or, Option.some_or]
    · simp only [if_neg hjitter, if_neg hthreads, Option.none_or]

/-- **The first check that finds anything** says why there are no settings. -/
theorem failure?_ofArguments (read : String → Except OsFault (List UInt8)) (a : Arguments) :
    failure? (ofArguments read a) = Check.all.findSome? (Check.fault? read a) := by
  unfold ofArguments
  -- no later check depends on what an earlier one has read
  rw [failure?_bind fun mode => failure?_bind fun ca => failure?_bind fun client => failure?_bind fun key =>
      failure?_validated read mode ⟨ca, client, key⟩,
    failure?_ofName read, failure?_readFile?, failure?_readFile?, failure?_readFile?]
  have hcons : ∀ c cs, (c :: cs : List Check).findSome? (Check.fault? read a) =
      (c.fault? read a).or (cs.findSome? (Check.fault? read a)) := by
    intro c cs
    rw [List.findSome?_cons]
    cases c.fault? read a <;> rfl
  simp only [Check.all, hcons, List.findSome?_nil, Option.or_none]
  rfl

/-- Settings that are not refused are those that the arguments ask for. -/
theorem assembled_of_ok {s : Settings} (h : ofArguments read a = .ok s) :
    ∃ mode ca client key, TlsMode.ofName a.tlsMode = .ok mode ∧ readFile? read a.caCertificate = .ok ca ∧
      readFile? read a.clientCertificate = .ok client ∧ readFile? read a.clientKey = .ok key ∧
      s = assemble a mode ⟨ca, client, key⟩ := by
  obtain ⟨mode, hmode, h⟩ := of_bind_ok h
  obtain ⟨ca, hca, h⟩ := of_bind_ok h
  obtain ⟨client, hclient, h⟩ := of_bind_ok h
  obtain ⟨key, hkey, h⟩ := of_bind_ok h
  refine ⟨mode, ca, client, key, hmode, hca, hclient, hkey, ?_⟩
  unfold validated at h
  split at h
  · exact absurd h (by simp)
  · exact (Except.ok.inj h).symm

end BorderSync.Settings
