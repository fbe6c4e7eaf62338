/-
# BorderSync.Proofs.Event.Interchange -- equal changes are interchangeable

Changes compare equal if kind, label, version and addresses agree; what is made of a change comes from the
key, the ports and the annotations of its service. That equal changes are dealt with alike therefore rests on
what a cluster guarantees: its namespaces have no slash, so that a label says which key is meant, and a
version of a service has one body. Nothing is ever made of the replaced body.
-/
import BorderSync.Proofs.Plan
import BorderSync.Proofs.Watch.Effects

namespace BorderSync

open Cluster Event

/-- **Guaranteed**: what a cluster guarantees of its services, and that they have names. -/
structure Cluster.Guaranteed (known : Service → Prop) : Prop where
  named : ∀ s, known s → s.name.isSome = true
  plain : ∀ s, known s → s.hasPlainSpace = true
  /-- Namespace, name and version determine the body, as far as it matters here. -/
  body : ∀ s t, known s → known t → s.space = t.space → s.name = t.name → s.version = t.version →
    s.annotations = t.annotations ∧ s.ports = t.ports

namespace Plan

/-! ## What plans are made of -/

/-- Of a body only name, annotations and ports play a part. -/
theorem ofBody_congr {s t : Service} (hname : s.name = t.name) (hannotations : s.annotations = t.annotations)
    (hports : s.ports = t.ports) (kind : Kind) (nodes : List String) (cache : Cache) :
    ofBody kind s nodes cache = ofBody kind t nodes cache := by
  have hupdate : updateOf? kind s nodes = updateOf? kind t nodes := by
    funext p
    simp only [updateOf?, hannotations]
  have hreport : portReport? s = portReport? t := by
    funext p
    simp only [portReport?, hname]
  simp only [ofBody, updatesOf, portReports, hports, hupdate, hreport]

/-- The replaced body plays no part. -/
theorem ofChange_previous (cache : Cache) (c : Change) (previous : Option Service) :
    ofChange cache { c with previous := previous } = ofChange cache c :=
  rfl

/-- A deletion that comes again finds nothing. -/
theorem ofDeletion_again (k : Key) (cache : Cache) :
    (ofDeletion k (ofDeletion k cache).cache).updates = [] ∧
      (ofDeletion k (ofDeletion k cache).cache).cache = (ofDeletion k cache).cache := by
  have hgone : (ofDeletion k cache).cache.get? k = none := by rw [get?_ofDeletion, if_pos rfl]
  generalize (ofDeletion k cache).cache = rest at hgone
  unfold ofDeletion
  rw [hgone]
  exact ⟨rfl, rfl⟩

end Plan

/-! ## Equal changes -/

/-- **Interchangeable** changes: it does not matter which of them is dealt with. -/
structure Event.Change.Interchangeable (a b : Change) : Prop where
  key : ∃ k, Key.ofService? a.service = some k ∧ Key.ofService? b.service = some k
  /-- The updates, the cache afterwards and the reports are the same. -/
  plan : ∀ cache, ∃ p, Plan.ofChange cache a = .ok p ∧ Plan.ofChange cache b = .ok p
  /-- The replaced bodies play no part, whatever they are. -/
  previous : ∀ cache old new, Plan.ofChange cache { a with previous := old } =
    Plan.ofChange cache { b with previous := new }
  /-- The one that comes second is not taken in while the first one is to be handed out. -/
  collapsed : ∀ q : WorkQueue Change, q.dirty.contains a = true → q.push b = q
  /-- If it were, it would leave the cache alone, and would ask for the same once more, or for nothing. -/
  again : ∀ cache p, Plan.ofChange cache a = .ok p → ∃ p', Plan.ofChange p.cache b = .ok p' ∧
    p'.cache = p.cache ∧ p'.updates = if a.kind = .deleted then [] else p.updates

/-- **What equal changes agree in.** -/
theorem Event.Change.agree_of_beq {a b : Change} (h : (a == b) = true) : a.kind = b.kind ∧ a.label = b.label ∧
    a.service.version = b.service.version ∧ a.nodes = b.nodes := by
  simpa [identity] using beq_iff.mp h

/-- Services with equal labels have the same key. -/
theorem Cluster.Guaranteed.key_eq {known : Service → Prop} (hc : Guaranteed known) {s t : Service}
    (hs : known s) (ht : known t) (hlabel : s.label = t.label) :
    ∃ k, Key.ofService? s = some k ∧ Key.ofService? t = some k := by
  obtain ⟨n, hn⟩ := Option.isSome_iff_exists.mp (hc.named s hs)
  obtain ⟨m, hm⟩ := Option.isSome_iff_exists.mp (hc.named t ht)
  have hsKey : Key.ofService? s = some ⟨s.space, n⟩ := by simp [Key.ofService?, hn]
  have htKey : Key.ofService? t = some ⟨t.space, m⟩ := by simp [Key.ofService?, hm]
  have htext : (⟨s.space, n⟩ : Key).text = (⟨t.space, m⟩ : Key).text := by
    rw [← Key.text_of_ofService? hsKey, ← Key.text_of_ofService? htKey, hlabel]
  have hkey := Key.text_inj (Intake.plain_of_ofService? hsKey (hc.plain s hs))
    (Intake.plain_of_ofService? htKey (hc.plain t ht)) htext
  exact ⟨_, hsKey, hkey ▸ htKey⟩

/-- **Equal changes ask for the same plan.** -/
theorem Plan.ofChange_of_beq {known : Service → Prop} (hc : Guaranteed known) {a b : Change}
    (h : (a == b) = true) (ha : known a.service) (hb : known b.service) (cache : Cache) :
    ∃ p, Plan.ofChange cache a = .ok p ∧ Plan.ofChange cache b = .ok p := by
  obtain ⟨hkind, hlabel, hversion, hnodes⟩ := Change.agree_of_beq h
  obtain ⟨k, hak, hbk⟩ := hc.key_eq ha hb hlabel
  by_cases hdeleted : a.kind = .deleted
  · exact ⟨_, ofChange_deleted cache hdeleted hak, ofChange_deleted cache (hkind ▸ hdeleted) hbk⟩
  · obtain ⟨n, hname, rfl⟩ := Option.map_eq_some_iff.mp hak
    obtain ⟨m, hname', hkey⟩ := Option.map_eq_some_iff.mp hbk
    obtain ⟨hspace, rfl⟩ := Key.mk.inj hkey
    have hsame : a.service.name = b.service.name := hname.trans hname'.symm
    obtain ⟨hannotations, hports⟩ := hc.body _ _ ha hb hspace.symm hsame hversion
    refine ⟨_, ofChange_body cache hdeleted hak, ?_⟩
    rw [ofChange_body cache (hkind ▸ hdeleted) hbk, ofBody_congr hsame hannotations hports, hkind, hnodes]

/-- **Equal changes are interchangeable**, whatever the cache holds. -/
theorem Event.Change.interchangeable_of_beq {known : Service → Prop} (hc : Guaranteed known) {a b : Change}
    (h : (a == b) = true) (ha : known a.service) (hb : known b.service) : a.Interchangeable b where
  key := hc.key_eq ha hb (agree_of_beq h).2.1
  plan := Plan.ofChange_of_beq hc h ha hb
  previous cache old new := by
    rw [Plan.ofChange_previous, Plan.ofChange_previous]
    obtain ⟨p, hpa, hpb⟩ := Plan.ofChange_of_beq hc h ha hb cache
    exact hpa.trans hpb.symm
  collapsed q hq := by
    unfold WorkQueue.push
    rw [if_pos]
    rw [← List.contains_congr h]
    exact hq
  again cache p hp := by
    obtain ⟨p', hpa, hpb⟩ := Plan.ofChange_of_beq hc h ha hb p.cache
    refine ⟨p', hpb, ?_⟩
    obtain ⟨k, hak⟩ : ∃ k, Key.ofService? a.service = some k :=
      Option.isSome_iff_exists.mp (by simpa [Key.ofService?] using hc.named _ ha)
    by_cases hdeleted : a.kind = .deleted
    · rw [Plan.ofChange_deleted _ hdeleted hak] at hp hpa
      obtain rfl := Except.ok.inj hp
      obtain rfl := Except.ok.inj hpa
      obtain ⟨hupdates, hcache⟩ := Plan.ofDeletion_again k cache
      exact ⟨hcache, by rw [if_pos hdeleted, hupdates]⟩
    · rw [Plan.ofChange_body _ hdeleted hak] at hp hpa
      obtain rfl := Except.ok.inj hp
      obtain rfl := Except.ok.inj hpa
      exact ⟨rfl, by rw [if_neg hdeleted]; rfl⟩

end BorderSync
