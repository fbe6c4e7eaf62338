/-
# BorderSync.Proofs.Watch.Remembered -- what the cache says once everything is done

The watcher writes to the cache at the moment of a sight, but a deletion takes its entry out only when
somebody plans for it, some time after the service was seen to be gone. A service that is seen again
in between loses its new entry to the old deletion. These are the only sights that the cache forgets:
this module says exactly what the cache holds, after every run and for every key, and exactly what the
plan for a deletion finds.
-/
import BorderSync.Proofs.Watch.Effects

namespace BorderSync.Intake

open Cluster Event

/-! ## What a history tells of a key -/

/-- **Seen**: the last sight of a key. -/
inductive Seen where
  /-- The service, with its body and worker addresses; the last part says whether the sight came while
  a deletion of the key was under way. -/
  | present (body : Service) (nodes : List String) (chased : Bool)
  /-- The service is gone; what was seen of it right before, if anything. -/
  | gone (before : Option (Service × List String))
  deriving DecidableEq, Repr

/-- What a sight shows that the end of the service may follow. -/
def Seen.body? : Seen → Option (Service × List String)
  | .present body nodes _ => some (body, nodes)
  | .gone _ => none

/-- **Stream**: the sights of a key, with the last one for a state. It is orderly, and so legal, when no
sight of the service comes while a deletion of it is under way, and only what was present goes away. -/
def stream (k : Key) : Machine (Option Seen) Mark where
  allows last
    | .applied j _ _ chased => j != k || !chased
    | .deleted j => j != k || (last.bind Seen.body?).isSome
    | .planned _ _ _ => true
  next last
    | .applied j body nodes chased => if j = k then some (.present body nodes chased) else last
    | .deleted j => if j = k then some (.gone (last.bind Seen.body?)) else last
    | .planned _ _ _ => last

/-- The last sight of a key. -/
def lastSeen (k : Key) (l : List Mark) : Option Seen :=
  (stream k).run none l

/-- No sight of the key comes while a deletion of it is under way, and only what was present goes away. -/
def isOrderly (k : Key) (l : List Mark) : Bool :=
  (stream k).legal none l

/-- What was seen of a key since the last plan for a deletion of it. -/
def unspent (k : Key) (l : List Mark) : Option (Service × List String) :=
  l.foldl (fun held m =>
    match m with
    | .applied j body nodes _ => if j = k then some (body, nodes) else held
    | .deleted _ => held
    | .planned j _ _ => if j = k then none else held) none

theorem lastSeen_append (k : Key) (l l' : List Mark) :
    lastSeen k (l ++ l') = (stream k).run (lastSeen k l) l' :=
  (stream k).run_append none l l'

theorem isOrderly_append (k : Key) (l l' : List Mark) :
    isOrderly k (l ++ l') = true ↔
      isOrderly k l = true ∧ (stream k).legal (lastSeen k l) l' = true :=
  (stream k).legal_append none l l'

/-- Marks of other keys tell nothing of a key. -/
theorem lastSeen_aside {k : Key} (l : List Mark) {l' : List Mark} (h : ∀ m ∈ l', m.key ≠ k) :
    lastSeen k (l ++ l') = lastSeen k l := by
  rw [lastSeen_append]
  generalize lastSeen k l = last
  induction l' with
  | nil => rfl
  | cons m l' ih =>
    have hm := h m List.mem_cons_self
    rw [Machine.run_cons, show (stream k).next last m = last by
      cases m <;> simp_all [stream, Mark.key]]
    exact ih fun m' hm' => h m' (List.mem_cons_of_mem _ hm')

theorem unspent_aside {k : Key} (l : List Mark) {l' : List Mark} (h : ∀ m ∈ l', m.key ≠ k) :
    unspent k (l ++ l') = unspent k l := by
  unfold unspent
  rw [List.foldl_append]
  generalize List.foldl _ none l = held
  induction l' with
  | nil => rfl
  | cons m l' ih =>
    have hm := h m List.mem_cons_self
    have hrest := ih fun m' hm' => h m' (List.mem_cons_of_mem _ hm')
    rw [List.foldl_cons]
    cases m <;> simp_all [Mark.key]

/-! ## The invariant -/

/-- What the last sight of a key says of its entry and of the deletions of it that are under way. -/
def Standing (entry : Option (Service × List String)) (pending : Nat) : Option Seen → Prop
  | none => entry = none ∧ pending = 0
  | some (.present body nodes false) => entry = some (body, nodes) ∧ pending = 0
  | some (.present body nodes true) => entry = none ∨ entry = some (body, nodes) ∧ 0 < pending
  | some (.gone _) => entry = none ∨ 0 < pending

/-- The same for a stream that is orderly: a deletion that is under way is the only one, and what it
will find is what was seen before it. -/
def OrderlyStanding (entry : Option (Service × List String)) (pending : Nat) : Option Seen → Prop
  | none => pending = 0
  | some (.present _ _ chased) => chased = false ∧ pending = 0
  | some (.gone before) =>
    entry = none ∧ pending = 0 ∨ before.isSome ∧ entry = before ∧ pending = 1

/-- **Fits**: a state and the history that led to it agree about a key. -/
structure Fits (k : Key) (s : Intake) (l : List Mark) : Prop where
  sound : s.Sound
  entry : s.view k = unspent k l
  standing : Standing (s.view k) (s.pending k) (lastSeen k l)
  orderly : isOrderly k l = true → OrderlyStanding (s.view k) (s.pending k) (lastSeen k l)

namespace Fits

variable {k : Key} {s t : Intake} {l : List Mark}

theorem start (name : String) (base max : Duration) : Fits k (.start name base max) [] :=
  ⟨.start name base max, rfl, ⟨rfl, rfl⟩, fun _ => rfl⟩

/-- A service is seen. -/
theorem applied (ht : t.Sound) {body : Service} {nodes : List String}
    (hview : t.view k = some (body, nodes)) (hpending : t.pending k = s.pending k) :
    Fits k t (l ++ [.applied k body nodes (decide (0 < s.pending k))]) := by
  have hlast : lastSeen k (l ++ [.applied k body nodes (decide (0 < s.pending k))])
      = some (.present body nodes (decide (0 < s.pending k))) := by
    simp [lastSeen_append, stream]
  refine ⟨ht, ?_, ?_, ?_⟩
  · rw [hview]
    simp [unspent, List.foldl_append]
  · rw [hlast, hview, hpending]
    by_cases hp : 0 < s.pending k
    · rw [decide_eq_true hp]
      exact .inr ⟨rfl, hp⟩
    · rw [decide_eq_false hp]
      exact ⟨rfl, by omega⟩
  · intro ho
    have hchased : decide (0 < s.pending k) = false := by
      simpa [stream, Machine.legal_cons] using ((isOrderly_append k _ _).mp ho).2
    rw [hlast, hchased, hpending]
    exact ⟨rfl, by simpa using hchased⟩

/-- A service is seen to be gone. -/
theorem deleted (h : Fits k s l) (ht : t.Sound) (hview : t.view k = s.view k)
    (hpending : t.pending k = s.pending k + 1) : Fits k t (l ++ [.deleted k]) := by
  have hlast : lastSeen k (l ++ [.deleted k]) = some (.gone ((lastSeen k l).bind Seen.body?)) := by
    simp [lastSeen_append, stream]
  refine ⟨ht, ?_, ?_, ?_⟩
  · rw [hview, h.entry]
    simp [unspent, List.foldl_append]
  · rw [hlast]
    exact .inr (by omega)
  · intro ho
    obtain ⟨hbefore, hlegal⟩ := (isOrderly_append k _ _).mp ho
    have hpresent : ((lastSeen k l).bind Seen.body?).isSome = true := by
      simpa [stream, Machine.legal_cons] using hlegal
    have hstanding := h.standing
    have horderly := h.orderly hbefore
    rw [hlast, hview, hpending]
    -- what goes away was present, and no older deletion was under way
    cases hseen : lastSeen k l with
    | none => simp [hseen] at hpresent
    | some seen =>
      cases seen with
      | gone before => simp [hseen, Seen.body?] at hpresent
      | present body nodes chased =>
        rw [hseen] at hstanding horderly
        obtain ⟨rfl, hnone⟩ := horderly
        exact .inr ⟨rfl, hstanding.1, by omega⟩

/-- A consumer plans for a deletion. -/
theorem planned (h : Fits k s l) (ht : t.Sound) (hview : t.view k = none)
    (hpending : t.pending k + 1 = s.pending k) (found : Option (Service × List String))
    (updates : List Update) : Fits k t (l ++ [.planned k found updates]) := by
  have hlast : lastSeen k (l ++ [.planned k found updates]) = lastSeen k l := by
    simp [lastSeen_append, stream]
  have hstanding := h.standing
  refine ⟨ht, ?_, ?_, ?_⟩
  · rw [hview]
    simp [unspent, List.foldl_append]
  · rw [hlast, hview]
    -- a deletion was under way, so that the entry is not one that nothing chases
    cases hseen : lastSeen k l with
    | none =>
      rw [hseen] at hstanding
      have := hstanding.2
      omega
    | some seen =>
      rw [hseen] at hstanding
      cases seen with
      | gone before => exact .inl rfl
      | present body nodes chased =>
        cases chased with
        | true => exact .inl rfl
        | false =>
          have := hstanding.2
          omega
  · intro ho
    have horderly := h.orderly ((isOrderly_append k _ _).mp ho).1
    rw [hlast, hview]
    cases hseen : lastSeen k l with
    | none =>
      rw [hseen] at horderly
      have : s.pending k = 0 := horderly
      omega
    | some seen =>
      rw [hseen] at horderly
      cases seen with
      | present body nodes chased =>
        have := horderly.2
        omega
      | gone before =>
        rcases horderly with ⟨-, hnone⟩ | ⟨-, -, hone⟩
        · omega
        · exact .inl ⟨rfl, by omega⟩

/-- Nothing happens that concerns the key. -/
theorem aside (h : Fits k s l) (ht : t.Sound) {l' : List Mark} (hkey : ∀ m ∈ l', m.key ≠ k)
    (hview : t.view k = s.view k) (hle : t.pending k ≤ s.pending k)
    (hpos : 0 < s.pending k → 0 < t.pending k) : Fits k t (l ++ l') := by
  have hstanding := h.standing
  refine ⟨ht, ?_, ?_, ?_⟩
  · rw [hview, h.entry, unspent_aside l hkey]
  · rw [hview, lastSeen_aside l hkey]
    unfold Standing at hstanding ⊢
    split at hstanding
    · exact ⟨hstanding.1, by omega⟩
    · exact ⟨hstanding.1, by omega⟩
    · exact hstanding.imp_right (.imp_right hpos)
    · exact hstanding.imp_right hpos
  · intro ho
    have horderly := h.orderly ((isOrderly_append k _ _).mp ho).1
    rw [hview, lastSeen_aside l hkey]
    unfold OrderlyStanding at horderly ⊢
    split at horderly
    · omega
    · exact ⟨horderly.1, by omega⟩
    · rcases horderly with ⟨hnone, hzero⟩ | ⟨hsome, heq, hone⟩
      · exact .inl ⟨hnone, by omega⟩
      · exact .inr ⟨hsome, heq, by omega⟩

/-- **Every allowed move keeps a state and its history in agreement.** -/
theorem next (h : Fits k s l) (m : Move) (ha : s.allows m = true) :
    Fits k (s.next m) (l ++ s.marks m) := by
  have ht := h.sound.next m ha
  have heffect := effect (k := k) h.sound m ha
  generalize s.marks m = l' at heffect ⊢
  cases heffect with
  | applied body nodes hview hpending => exact applied ht hview hpending
  | deleted hview hpending => exact h.deleted ht hview hpending
  | planned hview hpending => exact h.planned ht hview hpending _ _
  | aside hkey hview hle hpos => exact h.aside ht hkey hview hle hpos

end Fits

/-! ## Everything is done -/

/-- Once everything is done no deletion is under way. -/
theorem pending_of_isIdle {s : Intake} (h : s.Sound) (hidle : s.isIdle = true) (k : Key) :
    s.pending k = 0 := by
  simp only [isIdle, Bool.and_eq_true, Option.isNone_iff_eq_none] at hidle
  obtain ⟨hout, hqueue⟩ := hidle
  obtain ⟨hload, hhands⟩ := h.inbound.of_isIdle (p := deletes k) hqueue
  have hunplanned : s.unplanned = [] := by
    refine List.eq_nil_iff_forall_not_mem.mpr ?_
    intro c hc
    have hhand := h.in_hand c (List.contains_iff_exists_mem_beq.mpr ⟨c, hc, BEq.rfl⟩)
    rw [hhands c] at hhand
    exact absurd hhand Bool.false_ne_true
  unfold pending
  rw [hout, hload, hunplanned]
  rfl

/-- **Remembers**: what the cache holds at the end of a run, and what every plan for a deletion found,
by the history of the run. -/
structure Remembers (s : Intake) (l : List Mark) : Prop where
  /-- Once everything is done a key has an entry exactly when the service was what was seen last, and no
  deletion of the key was under way at that sight; the entry is that of this sight. -/
  settled : s.isIdle = true → ∀ k, s.view k =
    match lastSeen k l with
    | some (.present body nodes false) => some (body, nodes)
    | _ => none
  /-- A plan for a deletion finds the last sight of the service since the plan before, and takes its
  servers away. -/
  found : ∀ k f updates before after, l = before ++ .planned k f updates :: after →
    f = unspent k before ∧ updates = Plan.cleanup f
  /-- As long as no sight comes while a deletion is under way, and only what was present goes away, a plan
  for a deletion finds what was seen right before the service was gone. -/
  orderly : ∀ k f updates before after, l = before ++ .planned k f updates :: after →
    isOrderly k before = true →
      ∃ body nodes, lastSeen k before = some (.gone (some (body, nodes))) ∧ f = some (body, nodes)

/-- A run from the start fits its history. -/
theorem run_fits (k : Key) (name : String) (base max : Duration) {ms : List Move}
    (hl : machine.legal (start name base max) ms = true) :
    Fits k (machine.run (start name base max) ms) (history (start name base max) ms) :=
  machine.log_keeps (P := Fits k) (fun _ _ m h ha => h.next m ha) (.start name base max) hl

/-- The state and the history right before a plan for a deletion. -/
theorem before_planned {name : String} {base max : Duration} {ms : List Move}
    (hl : machine.legal (start name base max) ms = true) {k : Key}
    {f : Option (Service × List String)} {updates : List Update} {before after : List Mark}
    (h : history (start name base max) ms = before ++ .planned k f updates :: after) :
    ∃ s, Fits k s before ∧ 0 < s.pending k ∧ f = s.view k ∧ updates = Plan.cleanup f := by
  obtain ⟨ms₁, m, ms₂, l₁, l₂, rfl, hmark, hbefore⟩ := machine.log_split h
  obtain ⟨hl₁, hl₂⟩ := (machine.legal_append _ _ _).mp hl
  have hfits := run_fits k name base max hl₁
  have heffect := effect (k := k) hfits.sound m ((machine.legal_cons _ _ _).mp hl₂).1
  rw [show marks _ m = _ from hmark] at heffect
  generalize hmarks : l₁ ++ Mark.planned k f updates :: l₂ = l' at heffect
  cases heffect with
  | applied body nodes hview hpending =>
    cases l₁ <;> simp at hmarks
  | deleted hview hpending =>
    cases l₁ <;> simp at hmarks
  | planned hview hpending =>
    cases l₁ with
    | cons m' l₁ => simp at hmarks
    | nil =>
      simp only [List.nil_append, List.cons.injEq, Mark.planned.injEq] at hmarks
      obtain ⟨⟨-, rfl, rfl⟩, -⟩ := hmarks
      rw [List.append_nil] at hbefore
      exact ⟨_, hbefore ▸ hfits, by omega, rfl, rfl⟩
  | aside hkey hview hle hpos =>
    exact absurd rfl (hkey (.planned k f updates) (hmarks ▸ by simp))

/-- **What the cache remembers.** After every run of a watcher, the inbound queue and any number of
consumers, in whatever order their moves come. -/
theorem run_remembers (name : String) (base max : Duration) (ms : List Move)
    (hl : machine.legal (start name base max) ms = true) :
    Remembers (machine.run (start name base max) ms) (history (start name base max) ms) := by
  refine ⟨?_, ?_, ?_⟩
  · intro hidle k
    have hfits := run_fits k name base max hl
    have hstanding := hfits.standing
    rw [pending_of_isIdle hfits.sound hidle k] at hstanding
    unfold Standing at hstanding
    split at hstanding
    · rename_i hseen
      rw [hseen]
      exact hstanding.1
    · rename_i hseen
      rw [hseen]
      exact hstanding.1
    · rename_i hseen
      rw [hseen]
      rcases hstanding with hnone | ⟨-, hpos⟩
      · exact hnone
      · omega
    · rename_i hseen
      rw [hseen]
      rcases hstanding with hnone | hpos
      · exact hnone
      · omega
  · intro k f updates before after h
    obtain ⟨s, hfits, -, rfl, hupdates⟩ := before_planned hl h
    exact ⟨hfits.entry, hupdates⟩
  · intro k f updates before after h ho
    obtain ⟨s, hfits, hpending, rfl, -⟩ := before_planned hl h
    have horderly := hfits.orderly ho
    unfold OrderlyStanding at horderly
    split at horderly
    · omega
    · have := horderly.2
      omega
    · rename_i gone hgone
      rcases horderly with ⟨-, hzero⟩ | ⟨hsome, hview, -⟩
      · omega
      · obtain ⟨⟨body, nodes⟩, rfl⟩ := Option.isSome_iff_exists.mp hsome
        exact ⟨body, nodes, hgone, hview⟩

/-- A service in one of its versions. -/
def web (version : String) : Service :=
  { name := some "web", namespaceName := some "default", version := some version }

/-- A change on its way through the queue, from its landing until a consumer is done with it. -/
def passage (c : Change) : List Move :=
  [.land c, .take, .plan c, .forget c, .done c]

/-- The service is seen, is gone, and is seen again before its deletion has come through the queue. -/
def overtaking : List Move :=
  [.see (.applied (web "1")) ["10.0.0.1"], .rate, .post]
    ++ passage (.of .created (web "1") none ["10.0.0.1"])
    ++ [.see (.deleted (web "1")) [], .rate, .post]
    ++ [.see (.applied (web "2")) ["10.0.0.1"], .rate, .post]
    ++ passage (.of .deleted (web "1") none [])
    ++ passage (.of .updated (web "2") (some (web "1")) ["10.0.0.1"])

/-- A run in which a sight overtakes a deletion. -/
theorem run_remembers_overtaking :
    machine.legal (start "inbound" ⟨1⟩ ⟨10⟩) overtaking = true ∧
      Remembers (machine.run (start "inbound" ⟨1⟩ ⟨10⟩) overtaking)
        (history (start "inbound" ⟨1⟩ ⟨10⟩) overtaking) :=
  ⟨by decide, run_remembers "inbound" ⟨1⟩ ⟨10⟩ overtaking (by decide)⟩

/-- A service that was present when it was last seen may have no entry, although everything is done. -/
theorem forgets_present : ¬ ∀ (name : String) (base max : Duration) (ms : List Move),
    machine.legal (start name base max) ms = true →
      (machine.run (start name base max) ms).isIdle = true →
        ∀ k, (machine.run (start name base max) ms).view k =
          (lastSeen k (history (start name base max) ms)).bind Seen.body? := by
  intro h
  have hview := h "inbound" ⟨1⟩ ⟨10⟩ overtaking (by decide) (by decide) ⟨"default", "web"⟩
  revert hview
  decide

end BorderSync.Intake
