/-
# BorderSync.Proofs.Settings.AsGiven -- settings that are accepted are used as they are given

Those who use settings take precautions: an update without a host is dropped, no run is without workers,
the upper bound of the jitter is never taken below the lower one, and a wait never exceeds its maximum, even
where its base does. With settings that were read from arguments none of these precautions makes a
difference: the checks of the arguments leave nothing for them to correct.

To say so, each use is compared with one that takes no precaution.
-/
import BorderSync.Proofs.Delivery.Copies
import BorderSync.Proofs.Pipeline.Limits
import BorderSync.Proofs.Relay.ConsumerTurn
import BorderSync.Proofs.Settings.Checks

namespace BorderSync

open Event

/-! ## Waits -/

namespace Backoff

variable {α : Type} [BEq α] {b : Backoff α}

/-- **Within**: every wait is between two numbers of milliseconds. -/
def Within (b : Backoff α) (low high : Nat) : Prop :=
  ∀ x, (Duration.ofMillis low).nanos ≤ (b.wait x).nanos ∧ (b.wait x).nanos ≤ (Duration.ofMillis high).nanos

/-- With bounds that are in order every wait is between them. -/
theorem wait_between (h : b.base.nanos ≤ b.max.nanos) (x : α) :
    b.base.nanos ≤ (b.wait x).nanos ∧ (b.wait x).nanos ≤ b.max.nanos := by
  unfold wait delay
  have hfactor : 0 < Nat.pow 2 (min (b.count x) 31) := Nat.two_pow_pos _
  generalize Nat.pow 2 (min (b.count x) 31) = k at hfactor
  have hgrows : b.base.nanos ≤ b.base.nanos * k := Nat.le_mul_of_pos_right _ hfactor
  unfold Duration.scale?
  by_cases hfits : b.base.nanos * k ≤ Duration.longest.nanos
  · rw [if_pos hfits]
    exact ⟨Nat.le_min.mpr ⟨hgrows, h⟩, Nat.min_le_right _ _⟩
  · rw [if_neg hfits]
    exact ⟨h, Nat.le_refl _⟩

end Backoff

/-- A queue with these limits has its waits within them. -/
theorem WorkQueue.within_of_limits {α : Type} [BEq α] {q : WorkQueue α} {name : String} {low high : Nat}
    (hlimits : q.limits = ⟨name, .ofMillis low, .ofMillis high⟩) (h : low ≤ high) :
    q.backoff.Within low high := by
  have hbase : q.backoff.base = .ofMillis low := congrArg QueueSettings.base hlimits
  have hmax : q.backoff.max = .ofMillis high := congrArg QueueSettings.max hlimits
  intro x
  rw [← hbase, ← hmax]
  refine Backoff.wait_between ?_ x
  rw [hbase, hmax]
  exact Nat.mul_le_mul_right _ h

/-! ## Jitter -/

namespace Delivery.Jitter

theorem upper_of_le {min max : Nat} (h : min ≤ max) : upper min max = max :=
  Nat.max_eq_left h

/-- With bounds that are in order the draws are exactly the numbers between them. -/
theorem draws_iff {min max : Nat} (h : min ≤ max) (j : Nat) :
    (∃ r, draw min max r = j) ↔ min ≤ j ∧ j ≤ max := by
  constructor
  · rintro ⟨r, rfl⟩
    have hhigh := draw_le_upper min max r
    rw [upper_of_le h] at hhigh
    exact ⟨min_le_draw min max r, hhigh⟩
  · rintro ⟨hlow, hhigh⟩
    refine ⟨j - min, ?_⟩
    unfold draw
    rw [upper_of_le h, Nat.mod_eq_of_lt (by omega)]
    omega

end Delivery.Jitter

/-! ## Pipelines without precautions -/

namespace Pipeline

/-- Schedule a copy as the arguments say: it has a host, and the bounds of the jitter are in order. -/
def sendOff (a : Arguments) (p : Pipeline) (w : Update) : Pipeline :=
  { p with draws := p.draws + 1 }.addUpdateAfter w
    (.ofMillis (a.minJitter + p.draws % (a.maxJitter - a.minJitter + 1)))

theorem settings_addUpdateAfter (p : Pipeline) (u : Update) (d : Duration) :
    (p.addUpdateAfter u d).settings = p.settings :=
  congrArg Limits.settings (p.limits_addUpdateAfter u d)

theorem settings_sendOff (a : Arguments) (p : Pipeline) (w : Update) : (p.sendOff a w).settings = p.settings :=
  settings_addUpdateAfter { p with draws := p.draws + 1 } w _

theorem schedule_of_host {p : Pipeline} {w : Update} (hhost : w.host ≠ "") :
    p.schedule w = { p with draws := p.draws + 1 }.addUpdateAfter w
      (.ofMillis (Delivery.Jitter.draw p.settings.outbound.minJitter p.settings.outbound.maxJitter p.draws)) :=
  if_neg hhost

theorem schedule_eq_sendOff {a : Arguments} {p : Pipeline} (hmin : p.settings.outbound.minJitter = a.minJitter)
    (hmax : p.settings.outbound.maxJitter = a.maxJitter) (h : a.minJitter ≤ a.maxJitter) {w : Update}
    (hhost : w.host ≠ "") : p.schedule w = p.sendOff a w := by
  rw [schedule_of_host hhost, hmin, hmax, Delivery.Jitter.draw, Delivery.Jitter.upper_of_le h, sendOff]

theorem schedules_eq_sendOffs {a : Arguments} {p : Pipeline} (hmin : p.settings.outbound.minJitter = a.minJitter)
    (hmax : p.settings.outbound.maxJitter = a.maxJitter) (h : a.minJitter ≤ a.maxJitter) {ws : List Update}
    (hhosts : ∀ w ∈ ws, w.host ≠ "") : ws.foldl schedule p = ws.foldl (sendOff a) p := by
  induction ws generalizing p with
  | nil =>
    -- by rewriting: to compare what is folded, delays would be computed digit by digit
    rw [List.foldl_nil, List.foldl_nil]
  | cons w ws ih =>
    obtain ⟨hhost, hhosts⟩ := List.forall_mem_cons.mp hhosts
    rw [List.foldl_cons, List.foldl_cons, schedule_eq_sendOff hmin hmax h hhost]
    have hsettings := p.settings_sendOff a w
    exact ih (by rw [hsettings, hmin]) (by rw [hsettings, hmax]) hhosts

theorem settings_beforeCopies (p : Pipeline) (us : List Update) : (p.beforeCopies us).settings = p.settings := by
  unfold beforeCopies
  split <;> rfl

/-- As many tasks begin as are asked for. -/
theorem tasks_spawnMany (p : Pipeline) (n : Nat) (task : PipelineTask) :
    (p.spawnMany n task).tasks.map Prod.snd = p.tasks.map Prod.snd ++ List.replicate n task := by
  induction n with
  | zero => exact (List.append_nil _).symm
  | succ n ih =>
    show ((p.spawnMany n task).tasks ++ [_]).map Prod.snd = _
    rw [List.map_append, ih, List.append_assoc, List.replicate_succ']
    rfl

end Pipeline

/-! ## Hosts -/

namespace Text

/-- What is trimmed stays as it is when it is trimmed again. -/
theorem trimChars_trimChars (s : List Char) : trimChars (trimChars s) = trimChars s := by
  have h := trimmed_trimChars s
  refine (Trimmed.eq_trimChars ⟨⟨[], [], by simp, by simp, by simp⟩, h.first, h.last⟩).symm

end Text

namespace Settings

/-- **Hosts are not blank**, and have no white space around them. -/
theorem mem_parseHosts {raw host : String} (h : host ∈ parseHosts raw) : host ≠ "" ∧ Text.trim host = host := by
  unfold parseHosts at h
  obtain ⟨piece, hpiece, rfl⟩ := List.mem_map.mp h
  obtain ⟨hmem, hfull⟩ := List.mem_filter.mp hpiece
  obtain ⟨raw, -, rfl⟩ := List.mem_map.mp hmem
  refine ⟨?_, ?_⟩
  · intro hempty
    have hnil : Text.trimChars raw = [] := by simpa using congrArg String.toList hempty
    rw [hnil] at hfull
    exact absurd hfull (by simp)
  · unfold Text.trim
    rw [String.toList_ofList, Text.trimChars_trimChars]

/-! ## Uses -/

/-- **Used as given**: what becomes of settings in a pipeline is what the arguments say. -/
structure AsGiven (read : String → Except OsFault (List UInt8)) (a : Arguments) (s : Settings) : Prop where
  /-- Every value is that of the arguments. -/
  assembled : ∃ mode ca client key, TlsMode.ofName a.tlsMode = .ok mode ∧
    readFile? read a.caCertificate = .ok ca ∧ readFile? read a.clientCertificate = .ok client ∧
    readFile? read a.clientKey = .ok key ∧ s = assemble a mode ⟨ca, client, key⟩
  hosts : ∀ host ∈ s.hosts, host ≠ "" ∧ Text.trim host = host
  /-- No copy is dropped, and every copy is delayed by a draw between the bounds. -/
  fan_out : ∀ p : Pipeline, p.settings = s → ∀ us,
    p.fanOut us = (Delivery.copies s.hosts us (Delivery.consecutiveTokens p.draws us.length)).foldl
      (Pipeline.sendOff a) (p.beforeCopies us)
  /-- The draws are exactly the numbers between the bounds. -/
  jitter : ∀ j, (∃ r, Delivery.Jitter.draw s.outbound.minJitter s.outbound.maxJitter r = j) ↔
    a.minJitter ≤ j ∧ j ≤ a.maxJitter
  /-- As many consumers and workers begin as are asked for, and the reports say so. -/
  consumers : ∀ p : Pipeline, p.settings = s → ∀ t,
    (p.startAll t .inbound).tasks.map Prod.snd =
      p.tasks.map Prod.snd ++ List.replicate a.inboundThreads (.consumer t)
  workers : ∀ p : Pipeline, p.settings = s → ∀ t,
    (p.startAll t .outbound).tasks.map Prod.snd =
      p.tasks.map Prod.snd ++ List.replicate a.outboundThreads (.worker t none)
  staffed : Relay.consumers s = a.inboundThreads ∧ Station.workers s = a.outboundThreads
  announced : Pipeline.startedReport s .inbound =
      .info ("🚀 Handler started (" ++ toString a.inboundThreads ++ " consumers)") ∧
    Pipeline.startedReport s .outbound =
      .info ("🚀 Synchronizer started (" ++ toString a.outboundThreads ++ " workers)")
  /-- Whatever happens, a pipeline keeps its settings, and the waits of its queues are within the bounds. -/
  waits : ∀ line scripts ms, ((Pipeline.new s line scripts).run ms).settings = s ∧
    ((Pipeline.new s line scripts).run ms).inbound.queue.backoff.Within a.inboundBase a.inboundMax ∧
    ((Pipeline.new s line scripts).run ms).outbound.queue.backoff.Within a.outboundBase a.outboundMax

variable {read : String → Except OsFault (List UInt8)} {a : Arguments} {s : Settings}

/-- **In order**: the numbers among the arguments fit together. -/
structure InOrder (a : Arguments) : Prop where
  jitter : a.minJitter ≤ a.maxJitter
  consumers : 1 ≤ a.inboundThreads
  workers : 1 ≤ a.outboundThreads
  inbound : a.inboundBase ≤ a.inboundMax
  outbound : a.outboundBase ≤ a.outboundMax

/-- When there are settings no check finds anything. -/
theorem fault?_of_ok (h : ofArguments read a = .ok s) (c : Check) : c.fault? read a = none := by
  have hnone := failure?_ofArguments read a
  rw [failure?_eq_none.mpr ⟨s, h⟩, eq_comm, List.findSome?_eq_none_iff] at hnone
  exact hnone c (by cases c <;> decide)

/-- A check that finds nothing has found its condition not to hold. -/
theorem not_of_eq_none {cond : Prop} [Decidable cond] {e : Error} (h : (if cond then some e else none) = none) :
    ¬cond := by
  intro hcond
  rw [if_pos hcond] at h
  exact absurd h (by simp)

theorem inOrder_of_ok (h : ofArguments read a = .ok s) : InOrder a := by
  have hjitter := not_of_eq_none (fault?_of_ok h .jitter)
  have hthreads := not_of_eq_none (fault?_of_ok h .threads)
  have hinbound := not_of_eq_none (fault?_of_ok h .inboundBackoff)
  have houtbound := not_of_eq_none (fault?_of_ok h .outboundBackoff)
  constructor <;> omega

/-- **What is accepted is used as it is given.** -/
theorem asGiven_of_ok (h : ofArguments read a = .ok s) : AsGiven read a s := by
  have horder := inOrder_of_ok h
  obtain ⟨mode, ca, client, key, hmode, hca, hclient, hkey, rfl⟩ := assembled_of_ok h
  have hconsumers : Nat.max a.inboundThreads 1 = a.inboundThreads := Nat.max_eq_left horder.consumers
  have hworkers : Nat.max a.outboundThreads 1 = a.outboundThreads := Nat.max_eq_left horder.workers
  constructor
  case assembled => exact ⟨mode, ca, client, key, hmode, hca, hclient, hkey, rfl⟩
  case hosts =>
    intro host hmem
    exact mem_parseHosts hmem
  case fan_out =>
    intro p hp us
    have hsettings := (p.settings_beforeCopies us).trans hp
    rw [p.fanOut_eq us, hp]
    refine Pipeline.schedules_eq_sendOffs (by rw [hsettings]; rfl) (by rw [hsettings]; rfl) horder.jitter ?_
    intro w hw
    exact (mem_parseHosts (Delivery.host_of_mem_copies hw)).1
  case jitter => exact Delivery.Jitter.draws_iff horder.jitter
  case consumers =>
    intro p hp t
    rw [Pipeline.startAll, hp, Pipeline.tasks_spawnMany]
    exact congrArg (fun n => _ ++ List.replicate n (PipelineTask.consumer t)) hconsumers
  case workers =>
    intro p hp t
    rw [Pipeline.startAll, hp, Pipeline.tasks_spawnMany]
    exact congrArg (fun n => _ ++ List.replicate n (PipelineTask.worker t none)) hworkers
  case staffed => exact ⟨hconsumers, hworkers⟩
  case announced =>
    constructor
    · exact congrArg (fun n => Report.info ("🚀 Handler started (" ++ toString n ++ " consumers)")) hconsumers
    · exact congrArg (fun n => Report.info ("🚀 Synchronizer started (" ++ toString n ++ " workers)")) hworkers
  case waits =>
    intro line scripts ms
    have hlimits := (Pipeline.limits_run _ ms).trans
      (Pipeline.limits_new (assemble a mode ⟨ca, client, key⟩) line scripts)
    have hinbound := congrArg Limits.inbound hlimits
    have houtbound := congrArg Limits.outbound hlimits
    exact ⟨congrArg Limits.settings hlimits, WorkQueue.within_of_limits hinbound horder.inbound,
      WorkQueue.within_of_limits houtbound horder.outbound⟩

/-- **Judged**: what becomes of arguments. -/
structure Judged (read : String → Except OsFault (List UInt8)) (a : Arguments) : Prop where
  /-- Settings that are accepted are used as they are given. -/
  accepted : ∀ s, ofArguments read a = .ok s → AsGiven read a s
  /-- What is reported is the finding of the first check that finds anything. -/
  refused : ∀ e, ofArguments read a = .error e ↔
    ∃ before c after, Check.all = before ++ c :: after ∧ c.fault? read a = some e ∧
      ∀ d ∈ before, d.fault? read a = none

/-- **Arguments are used as they are given, or refused for the first fault that they have.** -/
theorem ofArguments_judged (read : String → Except OsFault (List UInt8)) (a : Arguments) : Judged read a where
  accepted _ h := asGiven_of_ok h
  refused e := by
    rw [← failure?_eq_some, failure?_ofArguments, List.findSome?_eq_some_iff]

/-- Arguments with the numbers of the defaults. -/
def usual : Arguments where
  hosts := " one, ,two"
  tlsMode := "no-tls"
  caCertificate := none
  clientCertificate := none
  clientKey := none
  inboundRetryCount := 5
  inboundThreads := 2
  inboundBase := 200
  inboundMax := 60000
  outboundRetryCount := 5
  outboundThreads := 3
  outboundBase := 500
  outboundMax := 60000
  minJitter := 10
  maxJitter := 750
  labelSelector := none
  healthPort := 51031
  requestTimeoutSecs := 10
  logLevel := "info"

/-- Without consumers, with an inverted jitter, and with a file that nobody has. -/
def spoilt : Arguments :=
  { usual with clientKey := some "key.pem", inboundThreads := 0, maxJitter := 5 }

/-- The usual arguments are accepted; of the three faults of the spoilt ones the file is reported. -/
theorem ofArguments_judged_usual :
    (∃ s, ofArguments (fun _ => .error .noSuchFile) usual = .ok s ∧ s.hosts = ["one", "two"] ∧
        AsGiven (fun _ => .error .noSuchFile) usual s) ∧
      ofArguments (fun _ => .error .noSuchFile) spoilt = .error (.os .noSuchFile) := by
  have haccepted : ofArguments (fun _ => .error .noSuchFile) usual = .ok (assemble usual .noTls {}) := by
    decide +kernel
  refine ⟨⟨_, haccepted, by decide +kernel, (ofArguments_judged _ usual).accepted _ haccepted⟩, ?_⟩
  exact ((ofArguments_judged _ spoilt).refused _).mpr ⟨[.tlsMode, .caFile, .clientFile], .keyFile,
    [.jitter, .threads, .inboundBackoff, .outboundBackoff], rfl, by decide +kernel, by decide +kernel⟩

end Settings

end BorderSync
