/-
# BorderSync.Proofs.Relay.Alike -- nothing depends on which of several equal changes is kept

The inbound queue keeps the first of several equal changes that wait, and consumers deal with that one. Two
relays are **alike** if they differ in nothing but this: where the one has a change, the other has one that
compares equal. Moves that differ in nothing else keep relays alike, and leave the same behind: the same
cache, the same station with the same requests, and the same reports.

To the queue this is a matter of names. A change is compared by its identity, so relays are alike if the
queues, the hands and the desks of both are the same once every change is replaced by its identity.
-/
import BorderSync.Proofs.Crew.Renamed
import BorderSync.Proofs.Event.Interchange
import BorderSync.Proofs.Relay.Basic

namespace BorderSync

open Cluster Event

/-- Changes compare equal exactly if their identities do. -/
theorem Event.Change.isNaming_identity : IsNaming Change.identity :=
  fun _ _ => rfl

namespace Relay

/-! ## Relays, moves and marks -/

/-- **Alike**: the same but for which of several equal changes is where. -/
structure Alike (s t : Relay) : Prop where
  shift : s.shift.rename Change.identity = t.shift.rename Change.identity
  cache : s.cache = t.cache
  station : s.station = t.station

/-- **Moves that are alike**: what is translated are known changes, and equal ones. -/
inductive Move.Alike (known : Service → Prop) : Move → Move → Prop
  | use {m n : WorkQueue.Move Change} :
      m.rename Change.identity = n.rename Change.identity → Alike known (.use m) (.use n)
  | watch (cache : Cache) : Alike known (.watch cache) (.watch cache)
  | ask : Alike known .ask .ask
  | plan {a b : Change} (tokens : Nat → Nat → String) : (a == b) = true → known a.service → known b.service →
      Alike known (.plan a tokens) (.plan b tokens)
  | send {a b : Change} (r : Nat) : (a == b) = true → Alike known (.send a r) (.send b r)
  | forget {a b : Change} : (a == b) = true → Alike known (.forget a) (.forget b)
  | done {a b : Change} : (a == b) = true → Alike known (.done a) (.done b)
  | close : Alike known .close .close
  | drained : Alike known .drained .drained
  | join : Alike known .join .join
  | station (m : Station.Move) : Alike known (.station m) (.station m)

/-- **Marks that are alike**: they name equal changes, and all else is the same. -/
inductive Mark.Alike : Mark → Mark → Prop
  | accepted {a b : Change} : (a == b) = true → Alike (.accepted a) (.accepted b)
  | turnedAway {a b : Change} : (a == b) = true → Alike (.turnedAway a) (.turnedAway b)
  | translated {a b : Change} (updates : List Update) (tokens : Nat → Nat → String) (reports : List Report) :
      (a == b) = true → Alike (.translated a updates tokens reports) (.translated b updates tokens reports)
  | returned : Alike .returned .returned
  | station (k : Station.Mark) : Alike (.station k) (.station k)

theorem Alike.refl (s : Relay) : s.Alike s :=
  ⟨rfl, rfl, rfl⟩

namespace Alike

variable {s t : Relay} (h : s.Alike t) {a b : Change} (hab : (a == b) = true)

include h

theorem phase : s.shift.phase = t.shift.phase :=
  (congrArg Shift.phase h.shift :)

theorem crew : s.shift.crew.rename Change.identity = t.shift.crew.rename Change.identity :=
  congrArg Shift.crew h.shift

theorem floor : s.shift.crew.floor.rename Change.identity = t.shift.crew.floor.rename Change.identity :=
  congrArg WorkQueue.Crew.floor h.crew

theorem queue : s.queue.rename Change.identity = t.queue.rename Change.identity :=
  congrArg WorkQueue.Floor.queue h.floor

theorem closed : s.queue.closed = t.queue.closed :=
  (congrArg WorkQueue.closed h.queue :)

theorem free : s.shift.crew.free = t.shift.crew.free :=
  (congrArg WorkQueue.Crew.free h.crew :)

theorem gone : s.shift.crew.gone = t.shift.crew.gone :=
  (congrArg WorkQueue.Crew.gone h.crew :)

theorem isIdle : s.queue.isIdle = t.queue.isIdle := by
  rw [← s.queue.isIdle_rename Change.identity, h.queue, t.queue.isIdle_rename]

/-- What is done to the queues is the same up to names. -/
theorem use {m n : WorkQueue.Move Change} (hm : m.rename Change.identity = n.rename Change.identity) :
    (s.shift.use m).rename Change.identity = (t.shift.use n).rename Change.identity := by
  rw [← s.shift.use_rename Change.isNaming_identity, h.shift, hm, t.shift.use_rename Change.isNaming_identity]

include hab

/-- Equal changes are at the same stage. -/
theorem stage? : s.stage? a = t.stage? b := by
  have hs := s.shift.desks.get?_rename Change.isNaming_identity a
  have ht := t.shift.desks.get?_rename Change.isNaming_identity b
  have hdesks := congrArg Shift.desks h.shift
  unfold Relay.stage?
  rw [← hs, ← ht, Change.beq_iff.mp hab]
  exact congrArg (Table.get? · b.identity) hdesks

/-- Equal changes go on to the same stage. -/
theorem turn (stage : Planning) :
    (s.shift.turn a stage).rename Change.identity = (t.shift.turn b stage).rename Change.identity := by
  rw [← s.shift.turn_rename Change.isNaming_identity, h.shift, Change.beq_iff.mp hab,
    t.shift.turn_rename Change.isNaming_identity]

end Alike

/-! ## Steps -/

section Steps

variable {known : Service → Prop} {settings : Settings} {s t : Relay} {m n : Move}

/-- **Moves that are alike are allowed alike.** -/
theorem Alike.allows (h : s.Alike t) (hm : m.Alike known n) :
    allows settings s m = allows settings t n := by
  cases hm with
  | @use m n hm =>
    have hallows : s.shift.crew.floor.allows m = t.shift.crew.floor.allows n := by
      rw [← s.shift.crew.floor.allows_rename Change.isNaming_identity, h.floor, hm,
        t.shift.crew.floor.allows_rename Change.isNaming_identity]
    show (Shift.isUse m && _) = (Shift.isUse n && _)
    rw [hallows, ← Shift.isUse_rename Change.identity m, hm, Shift.isUse_rename]
  | watch cache => rfl
  | ask => simp only [Relay.allows, h.free]
  | plan tokens hab _ _ => simp only [Relay.allows, h.stage? hab]
  | send r hab => simp only [Relay.allows, h.stage? hab]
  | forget hab => simp only [Relay.allows, h.stage? hab]
  | done hab => simp only [Relay.allows, h.stage? hab]
  | close => simp only [Relay.allows, h.phase]
  | drained => simp only [Relay.allows, h.phase, h.isIdle]
  | join => simp only [Relay.allows, h.phase, h.gone]
  | station m =>
    have hclose : s.mayClose m = t.mayClose m := by
      cases m <;> simp only [mayClose, h.phase]
    simp only [Relay.allows, h.station, hclose]

/-- What is brought to alike queues is accepted by both or turned away by both. -/
theorem Alike.useMarks (h : s.Alike t) {m n : WorkQueue.Move Change}
    (hm : m.rename Change.identity = n.rename Change.identity) :
    List.Forall₂ Mark.Alike (s.useMarks m) (t.useMarks n) := by
  have hbrings : (Shift.brings? m).map Change.identity = (Shift.brings? n).map Change.identity := by
    rw [← Shift.brings?_rename, hm, Shift.brings?_rename]
  unfold Relay.useMarks
  rw [h.closed]
  cases ha : Shift.brings? m with
  | none =>
    rw [ha, Option.map_none, eq_comm, Option.map_eq_none_iff] at hbrings
    rw [hbrings]
    exact .nil
  | some a =>
    rw [ha, Option.map_some, eq_comm, Option.map_eq_some_iff] at hbrings
    obtain ⟨b, hb, hab⟩ := hbrings
    have hbeq := Change.beq_iff.mpr hab.symm
    rw [hb]
    simp only
    split
    · exact .cons (.turnedAway hbeq) .nil
    · exact .cons (.accepted hbeq) .nil

/-- **Equal changes are translated alike.** -/
theorem Alike.plan (hc : Guaranteed known) (h : s.Alike t) {a b : Change} (hab : (a == b) = true)
    (ha : known a.service) (hb : known b.service) (tokens : Nat → Nat → String) :
    (s.plan settings a tokens).1.Alike (t.plan settings b tokens).1 ∧
      List.Forall₂ Mark.Alike (s.plan settings a tokens).2 (t.plan settings b tokens).2 := by
  obtain ⟨p, hpa, hpb⟩ := Plan.ofChange_of_beq hc hab ha hb t.cache
  unfold Relay.plan
  rw [h.cache, hpa, hpb]
  exact ⟨⟨h.turn hab _, rfl, h.station⟩, .cons (.translated _ _ _ hab) .nil⟩

theorem Alike.send (h : s.Alike t) {a b : Change} (hab : (a == b) = true) (r : Nat) :
    (s.send settings a r).1.Alike (t.send settings b r).1 ∧
      List.Forall₂ Mark.Alike (s.send settings a r).2 (t.send settings b r).2 := by
  have hsame : ∀ ks : List Station.Mark, List.Forall₂ Mark.Alike (ks.map Mark.station) (ks.map .station) :=
    fun ks => List.forall₂_same.mpr fun k hk => by
      obtain ⟨k, -, rfl⟩ := List.mem_map.mp hk
      exact .station k
  unfold Relay.send
  rw [h.stage? hab, h.station]
  split
  · exact ⟨⟨h.turn hab _, h.cache, rfl⟩, hsame _⟩
  · exact ⟨h, .nil⟩

/-- **Moves that are alike keep relays alike**, and leave marks that are alike. -/
theorem Alike.act (hc : Guaranteed known) (h : s.Alike t) (hm : m.Alike known n) :
    (act settings s m).1.Alike (act settings t n).1 ∧
      List.Forall₂ Mark.Alike (act settings s m).2 (act settings t n).2 := by
  cases hm with
  | use hm => exact ⟨⟨h.use hm, h.cache, h.station⟩, h.useMarks hm⟩
  | watch cache => exact ⟨⟨h.shift, rfl, h.station⟩, .nil⟩
  | ask =>
    refine ⟨⟨?_, h.cache, h.station⟩, .nil⟩
    show (s.shift.ask _).rename _ = (t.shift.ask _).rename _
    rw [← s.shift.ask_rename Change.isNaming_identity, h.shift, t.shift.ask_rename Change.isNaming_identity]
  | plan tokens hab ha hb => exact h.plan hc hab ha hb tokens
  | send r hab => exact h.send hab r
  | @forget a b hab =>
    have hused : Relay.Alike { s with shift := s.shift.use (.forget a) }
        { t with shift := t.shift.use (.forget b) } :=
      ⟨h.use (congrArg WorkQueue.Move.forget (Change.beq_iff.mp hab)), h.cache, h.station⟩
    exact ⟨⟨hused.turn hab .settled, h.cache, h.station⟩, .nil⟩
  | @done a b hab =>
    refine ⟨⟨?_, h.cache, h.station⟩, .nil⟩
    show (s.shift.done a).rename _ = (t.shift.done b).rename _
    rw [← s.shift.done_rename Change.isNaming_identity, h.shift, Change.beq_iff.mp hab,
      t.shift.done_rename Change.isNaming_identity]
  | close =>
    refine ⟨⟨?_, h.cache, h.station⟩, .nil⟩
    show s.shift.close.rename _ = t.shift.close.rename _
    rw [← s.shift.close_rename Change.isNaming_identity, h.shift,
      t.shift.close_rename Change.isNaming_identity]
  | drained => exact ⟨⟨congrArg Shift.drained h.shift, h.cache, h.station⟩, .nil⟩
  | join => exact ⟨⟨congrArg Shift.join h.shift, h.cache, h.station⟩, .cons .returned .nil⟩
  | station m =>
    show Relay.Alike { s with station := (s.station.act settings m).1 }
        { t with station := (t.station.act settings m).1 } ∧
      List.Forall₂ Mark.Alike ((s.station.act settings m).2.map .station)
        ((t.station.act settings m).2.map .station)
    rw [h.station]
    refine ⟨⟨h.shift, h.cache, rfl⟩, List.forall₂_same.mpr fun k hk => ?_⟩
    obtain ⟨k, -, rfl⟩ := List.mem_map.mp hk
    exact .station k

/-! ## Runs -/

/-- **Runs that are alike**: they are legal alike, keep relays alike, and leave marks that are alike. -/
theorem Alike.run (hc : Guaranteed known) (h : s.Alike t) {ms ns : List Move}
    (hms : List.Forall₂ (Move.Alike known) ms ns) :
    (machine settings).legal s ms = (machine settings).legal t ns ∧
      ((machine settings).run s ms).Alike ((machine settings).run t ns) ∧
      List.Forall₂ Mark.Alike (history settings s ms) (history settings t ns) := by
  induction hms generalizing s t with
  | nil => exact ⟨rfl, h, .nil⟩
  | @cons m n ms ns hm _ ih =>
    obtain ⟨hnext, hmarks⟩ : (Relay.act settings s m).1.Alike (Relay.act settings t n).1 ∧ _ := h.act hc hm
    obtain ⟨hlegal, hrun, hhistory⟩ := ih hnext
    refine ⟨?_, hrun, List.rel_append hmarks hhistory⟩
    show (Relay.allows settings s m && _) = (Relay.allows settings t n && _)
    rw [h.allows hm]
    exact congrArg _ hlegal

end Steps

/-- **Equal changes are interchangeable, and so it does not matter which of them the queue keeps.** Take two
relays that differ only in which of several equal changes is where, and two runs that differ only in which of
them are added and dealt with. Both are legal or neither is; caches and stations stay the same; and the same
updates, requests and reports come of both. -/
theorem run_interchangeable {known : Service → Prop} (hc : Guaranteed known) (settings : Settings) :
    (∀ a b : Change, (a == b) = true → known a.service → known b.service → a.Interchangeable b) ∧
    ∀ (s t : Relay) (ms ns : List Move), s.Alike t → List.Forall₂ (Move.Alike known) ms ns →
      (machine settings).legal s ms = (machine settings).legal t ns ∧
      ((machine settings).run s ms).Alike ((machine settings).run t ns) ∧
      List.Forall₂ Mark.Alike (history settings s ms) (history settings t ns) :=
  ⟨fun _ _ h ha hb => Change.interchangeable_of_beq hc h ha hb, fun _ _ _ _ h hms => h.run hc hms⟩

/-- Settings with one border server. -/
def taproom : Settings :=
  { hosts := ["bar"] }

/-- A change whose replaced body is not known any more. -/
def refilled : Change :=
  { kind := .updated
    service := { name := some "web", version := some "2", ports := [⟨some "nlk-tea", some 30080⟩] }
    previous := none
    nodes := ["10.0.0.1"] }

/-- The same change with the replaced body. -/
def refilledAgain : Change :=
  { refilled with previous := some { name := some "web", version := some "1" } }

/-- Two changes are added one after the other, and a consumer deals with the one that is kept. -/
def kept (first second : Change) : List Move :=
  [.use (.add first), .use (.add second), .ask, .plan first fun _ _ => "", .send first 0, .forget first,
    .done first]

/-- Whichever of two equal changes comes first, only that one is kept, and the same update is scheduled. -/
theorem run_interchangeable_refilled :
    (machine taproom).legal (start taproom .empty) (kept refilled refilledAgain) = true ∧
      (machine taproom).legal (start taproom .empty) (kept refilledAgain refilled) = true ∧
      ((machine taproom).run (start taproom .empty) (kept refilled refilledAgain)).station =
        ((machine taproom).run (start taproom .empty) (kept refilledAgain refilled)).station ∧
      ((machine taproom).run (start taproom .empty) (kept refilled refilledAgain)).station.queue.delayed = 1 ∧
      refilled.Interchangeable refilledAgain := by
  have hc : Guaranteed (· = refilled.service) :=
    ⟨by rintro s rfl; rfl, by rintro s rfl; decide, by rintro s t rfl rfl - - -; exact ⟨rfl, rfl⟩⟩
  have hequal : (refilled == refilledAgain) = true := by decide
  have hmoves : List.Forall₂ (Move.Alike (· = refilled.service)) (kept refilled refilledAgain)
      (kept refilledAgain refilled) :=
    .cons (.use rfl) (.cons (.use rfl) (.cons .ask (.cons (.plan _ hequal rfl rfl) (.cons (.send 0 hequal)
      (.cons (.forget hequal) (.cons (.done hequal) .nil))))))
  have hl : (machine taproom).legal (start taproom .empty) (kept refilled refilledAgain) = true := by
    decide +kernel
  obtain ⟨hpairs, hruns⟩ := run_interchangeable hc taproom
  obtain ⟨hlegal, halike, -⟩ := hruns _ _ _ _ (.refl (start taproom .empty)) hmoves
  exact ⟨hl, hlegal ▸ hl, halike.station, by decide +kernel, hpairs _ _ hequal rfl rfl⟩

end Relay

end BorderSync
