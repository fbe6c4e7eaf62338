/-
# BorderSync.Proofs.Delivery.Delivered -- which of several updates of an upstream a server ends up with

Every copy of an update that was made is taken up in the end, and lists its upstream. From then on the
servers hold what it wants as soon as it is settled, unless the attempt at another update posts or deletes
there in the meantime. Delays are drawn for each copy alone and workers do not wait for one another, so
the copy that is not disturbed need not be one of the change that was translated last.
-/
import BorderSync.Proofs.Delivery.Undisturbed

namespace BorderSync.Outbound

open Border Event
open Endpoint (Location)

/-! ## All copies of a change -/

/-- **Delivers**: in the second part of a run a copy has listed its upstream. The servers hold in the end
exactly what it wants if nobody else writes there after a list of the copy; with a single worker, if nobody
lists there after it. -/
structure Delivers (settings : Settings) (s : Outbound) (ms₁ ms₂ : List Move) (u : Update)
    (l : Location) : Prop where
  listed : .listed u l ∈ history settings ((machine settings).run s ms₁) ms₂
  holds : ∀ before after, history settings s (ms₁ ++ ms₂) = before ++ .listed u l :: after →
    (∀ w, .wrote w l ∈ after → w = u) → ((machine settings).run s (ms₁ ++ ms₂)).Holds u l
  last : settings.outbound.threads ≤ 1 → ∀ before after,
    history settings s (ms₁ ++ ms₂) = before ++ .listed u l :: after →
      (∀ w, .listed w l ∉ after) → ((machine settings).run s (ms₁ ++ ms₂)).Holds u l

/-- **Delivery.** Once everything is done, every copy of a change that was translated has been delivered:
one for each port that takes part and each host. -/
theorem run_delivers (settings : Settings) (shelves : Table Location Shelf)
    (hids : ∀ l, ((shelves.get? l).getD []).ids.Nodup) {ms₁ ms₂ : List Move} {cache : Cluster.Cache}
    {c : Change} {tokens : Nat → Nat → String}
    (hlegal : (machine settings).legal (start settings shelves)
      (ms₁ ++ .translate cache c tokens :: ms₂) = true)
    (hidle : ((machine settings).run (start settings shelves)
      (ms₁ ++ .translate cache c tokens :: ms₂)).isIdle = true)
    (hkind : c.kind ≠ .deleted) (hname : c.service.name.isSome = true) :
    ∀ p ∈ c.service.ports, ∀ v, Plan.updateOf? c.kind c.service c.nodes p = some v →
      ∀ context, Manager.context? v.clientType = some context →
        ∀ host ∈ settings.hosts, ∀ l,
          (Client.new host).serversAt context v.upstream none = .ok l →
            ∃ id, Delivers settings (start settings shelves) ms₁ (.translate cache c tokens :: ms₂)
              (v.addressed id host) l := by
  intro p hp v hv context hcontext host hhost l hl
  have hplanned : v ∈ planned cache c := by
    rw [planned_body cache hkind hname]
    exact List.mem_filterMap.mpr ⟨p, hp, hv⟩
  obtain ⟨id, hcopy⟩ := exists_copy hhost hplanned tokens
  have hkind' : (v.addressed id host).kind ≠ .deleted := Plan.kind_of_updateOf? hv ▸ hkind
  have htracked := Tracked.start context (v.addressed id host) settings hids
  refine ⟨id, ?_, ?_, ?_⟩
  · obtain ⟨hlegal₁, hlegal₂⟩ := ((machine settings).legal_append _ _ _).mp hlegal
    obtain ⟨ha, hlegal₂⟩ := ((machine settings).legal_cons _ _ _).mp hlegal₂
    have hbefore := htracked.run hkind' hcontext hl hlegal₁
    have hafter : (next settings ((machine settings).run (start settings shelves) ms₁)
        (.translate cache c tokens)).Tracked context (v.addressed id host) :=
      hbefore.step hkind' hcontext hl (step_of_allows ha)
    -- right after the translation the copy is there, and not scheduled
    have hcoming : (next settings ((machine settings).run (start settings shelves) ms₁)
        (.translate cache c tokens)).IsComing (v.addressed id host) :=
      .inl (List.mem_append_right _ hcopy)
    refine List.mem_append_right _
      (listed_of_isIdle hkind' hcontext hl hafter (endpoint_ne_empty hl) hcoming hlegal₂ ?_)
    rw [(machine settings).run_append] at hidle
    exact hidle
  · intro before after hsplit halone
    exact holds_of_listed hkind' hcontext hl htracked hlegal hidle hsplit halone
  · intro hone before after hsplit hlast
    exact holds_of_last_list hkind' hcontext hl htracked (Nat.zero_le _) hone hlegal hidle hsplit hlast

/-! ## Two changes on their way at once -/

/-- Two workers, and no delay. -/
def twoWorkers : Settings :=
  { hosts := ["http://lb"], outbound := { threads := 2, minJitter := 0, maxJitter := 0 } }

/-- A port that takes part. -/
def webPort : Cluster.Port :=
  { name := some "nlk-web", nodePort := some 30000 }

/-- A change of a service with this port, on one node. -/
def webOn (kind : Kind) (node : String) : Change :=
  .of kind { name := some "web", namespaceName := some "default", ports := [webPort] } none [node]

/-- What the service asks for. -/
def web (kind : Kind) (node : String) : Update :=
  { kind := kind, upstream := "web", clientType := "http", servers := [node ++ ":30000"] }

/-- Its copy. -/
def copyOf (v : Update) (token : String) : Update :=
  v.addressed (Id.text 0 0 token "web" "http://lb") "http://lb"

/-- Where the copy is carried out. -/
def place : Location :=
  { scheme := "http", host := some "lb", segments := ["8", "http", "upstreams", "web", "servers"] }

theorem updateOf?_webPort : Plan.updateOf? .updated (webOn .updated "10.0.0.2").service ["10.0.0.2"]
    webPort = some (web .updated "10.0.0.2") := by
  decide +kernel

theorem serversAt_place : (Client.new "http://lb").serversAt .http "web" none = .ok place := by
  decide +kernel

/-- A list of entries. -/
def listing (shelf : Shelf) : Answer :=
  .ok ⟨200, (Json.Value.array (shelf.map fun e =>
    Border.Entry.toJson .http { id := some e.1, server := e.2 })).render⟩

/-- A request is granted without further words. -/
def accepted : Answer :=
  .ok ⟨201, []⟩

/-- The changes that are translated in a run, in order. -/
def translated (ms : List Move) : List Change :=
  ms.filterMap fun
    | .translate _ c _ => some c
    | _ => none

/-- The changes tell of one named service and of no deletion; its ports have different names. -/
def OfOneService (cs : List Change) : Prop :=
  ∀ c ∈ cs, c.kind ≠ .deleted ∧ c.service.name.isSome = true ∧
    (c.service.ports.map Cluster.Port.name).Nodup ∧ ∀ d ∈ cs, d.label = c.label

/-- The service is created on one node. -/
def creation : Move :=
  .translate .empty (webOn .created "10.0.0.1") fun _ _ => "A"

/-- The service moves to another node. -/
def relocation : Move :=
  .translate .empty (webOn .updated "10.0.0.2") fun _ _ => "B"

/-- The two copies are scheduled and carried out one after the other. -/
def inTurn : List Move :=
  let u := copyOf (web .created "10.0.0.1") "A"
  let w := copyOf (web .updated "10.0.0.2") "B"
  [.schedule u 0, .schedule w 0,
   .take, .answer u (listing []) 0, .answer u accepted 1, .settle u, .done u,
   .take, .answer w (listing [(1, "10.0.0.1:30000")]) 0, .answer w accepted 2,
   .answer w accepted 0, .settle w, .done w]

/-- Two workers list before either writes. -/
def overlapping : List Move :=
  let u := copyOf (web .created "10.0.0.1") "A"
  let w := copyOf (web .updated "10.0.0.2") "B"
  [.schedule u 0, .schedule w 0, .take, .take,
   .answer u (listing []) 0, .answer w (listing []) 0, .answer w accepted 1, .answer u accepted 2,
   .settle w, .settle u, .done w, .done u]

/-- A run in which nothing disturbs the copy of the last change. -/
theorem run_delivers_in_turn :
    (machine twoWorkers).legal (start twoWorkers {}) ([creation] ++ relocation :: inTurn) = true ∧
      ∃ id, Delivers twoWorkers (start twoWorkers {}) [creation] (relocation :: inTurn)
        ((web .updated "10.0.0.2").addressed id "http://lb") place :=
  ⟨by decide +kernel,
    run_delivers twoWorkers {} (fun _ => List.nodup_nil) (by decide +kernel)
      (by decide +kernel) (by decide) rfl webPort List.mem_cons_self (web .updated "10.0.0.2")
      updateOf?_webPort .http (by decide) "http://lb" List.mem_cons_self place serversAt_place⟩

/-- **The last change may lose.** The servers need not hold in the end what the change asks for that was
translated last, although every request was granted. -/
theorem last_may_lose : ¬ ∀ (settings : Settings) (shelves : Table Location Shelf) (ms : List Move)
    (c : Change), settings.validate? = none → settings.hosts.Nodup →
      (∀ l, ((shelves.get? l).getD []).ids.Nodup) →
      (machine settings).legal (start settings shelves) ms = true →
      ((machine settings).run (start settings shelves) ms).isIdle = true →
      OfOneService (translated ms) → (translated ms).getLast? = some c →
        ∀ p ∈ c.service.ports, ∀ v, Plan.updateOf? c.kind c.service c.nodes p = some v →
          ∀ context, Manager.context? v.clientType = some context →
            ∀ host ∈ settings.hosts, ∀ l,
              (Client.new host).serversAt context v.upstream none = .ok l →
                ((machine settings).run (start settings shelves) ms).Holds v l := by
  intro h
  have hholds := h twoWorkers {} ([creation] ++ relocation :: overlapping) (webOn .updated "10.0.0.2")
    (by decide) (by decide) (fun _ => List.nodup_nil) (by decide +kernel) (by decide +kernel)
    (by unfold OfOneService; decide +kernel) rfl webPort List.mem_cons_self (web .updated "10.0.0.2")
    updateOf?_webPort .http (by decide) "http://lb" List.mem_cons_self place serversAt_place
  have hstill : "10.0.0.1:30000" ∈ (((machine twoWorkers).run (start twoWorkers {})
      ([creation] ++ relocation :: overlapping)).shelf place).addresses := by decide +kernel
  exact absurd ((hholds _).mp hstill) (by decide)

end BorderSync.Outbound
