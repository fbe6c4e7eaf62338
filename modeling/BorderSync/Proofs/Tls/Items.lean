/-
# BorderSync.Proofs.Tls.Items -- a configuration is decided by the items that its mode uses

A mode uses some of three items, and what the others hold plays no part. `Fails` says for each item by itself
what is wrong with it: it is not given, its file cannot be read, an entry of it is no certificate, or it cannot
be used. There is a configuration exactly if no used item fails, and otherwise the first one that fails says
why there is none. This holds for any acceptance of files, certificates and keys.
-/
import BorderSync.Proofs.Settings.Checks
import BorderSync.Tls.Configuration

namespace BorderSync

/-- **Items that a mode uses**, in the order in which they are looked at. -/
def TlsMode.uses : TlsMode → List Material
  | .noTls | .caTls => []
  | .caMutualTls => [.clientCertificate, .clientKey]
  | .selfSignedTls => [.caCertificate]
  | .selfSignedMutualTls => [.caCertificate, .clientCertificate, .clientKey]

theorem TlsMode.mem_uses (mode : TlsMode) : (.caCertificate ∈ mode.uses ↔ mode.usesCa = true) ∧
    (.clientCertificate ∈ mode.uses ↔ mode.usesClient = true) ∧
    (.clientKey ∈ mode.uses ↔ mode.usesClient = true) := by
  cases mode <;> decide

/-- What is given for an item. -/
def Certificates.item (c : Certificates) : Material → Option (List UInt8)
  | .caCertificate => c.ca
  | .clientCertificate => c.client
  | .clientKey => c.key

namespace Tls

open Settings (failure? failure?_eq_some)

variable {a : Acceptance} {file : List UInt8}

/-! ## Bundles -/

/-- **A bundle**: a file with at least one entry, all of which are read and are certificates. -/
structure Bundle (a : Acceptance) (file : List UInt8) (certificates : List (List UInt8)) : Prop where
  read : a.entries file = certificates.map .ok
  full : certificates ≠ []
  wellFormed : ∀ c ∈ certificates, a.certificateFault? c = none

/-- **No bundle**: why a file is none. What cannot be read comes before what is no certificate. -/
inductive BundleFault (a : Acceptance) (file : List UInt8) : MaterialFault → Prop
  | unread {before : List (List UInt8)} {fault : Pem.Fault} {after : List (Except Pem.Fault (List UInt8))} :
      a.entries file = before.map .ok ++ .error fault :: after → BundleFault a file (.certificateFile fault)
  | empty : a.entries file = [] → BundleFault a file .noCertificate
  | malformed {certificates : List (List UInt8)} {words : String} : a.entries file = certificates.map .ok →
      certificates.findSome? a.certificateFault? = some words → BundleFault a file (.certificate words)

section Results

variable {ε α : Type}

/-- Results that are all there are there together. -/
theorem mapM_id_map_ok (as : List α) : (as.map (Except.ok (ε := ε))).mapM id = .ok as := by
  induction as with
  | nil => rfl
  | cons x as ih =>
    rw [List.map_cons, List.mapM_cons, ih]
    rfl

/-- The first failure among results is theirs together. -/
theorem mapM_id_append_error (as : List α) (f : ε) (rest : List (Except ε α)) :
    (as.map Except.ok ++ Except.error f :: rest).mapM id = .error f := by
  induction as with
  | nil => rfl
  | cons x as ih =>
    rw [List.map_cons, List.cons_append, List.mapM_cons, ih]
    rfl

/-- Results are all there, or there is a first failure among them. -/
theorem exists_map_ok (es : List (Except ε α)) :
    ∃ as : List α, es = as.map .ok ∨ ∃ f rest, es = as.map .ok ++ .error f :: rest := by
  induction es with
  | nil => exact ⟨[], .inl rfl⟩
  | cons e es ih =>
    cases e with
    | error f => exact ⟨[], .inr ⟨f, es, rfl⟩⟩
    | ok x =>
      obtain ⟨as, rfl | ⟨f, rest, rfl⟩⟩ := ih
      · exact ⟨x :: as, .inl rfl⟩
      · exact ⟨x :: as, .inr ⟨f, rest, rfl⟩⟩

end Results

/-- Every file is a bundle, or something is wrong with it. -/
theorem bundle_or_fault (a : Acceptance) (file : List UInt8) :
    (∃ certificates, Bundle a file certificates) ∨ ∃ fault, BundleFault a file fault := by
  obtain ⟨certificates, hread | ⟨fault, rest, hread⟩⟩ := exists_map_ok (a.entries file)
  · by_cases hnone : certificates = []
    · subst hnone
      exact .inr ⟨_, .empty hread⟩
    · cases hwords : certificates.findSome? a.certificateFault? with
      | none => exact .inl ⟨certificates, hread, hnone, List.findSome?_eq_none_iff.mp hwords⟩
      | some words => exact .inr ⟨_, .malformed hread hwords⟩
  · exact .inr ⟨_, .unread hread⟩

/-- A bundle is accepted. -/
theorem Bundle.certificates {certificates : List (List UInt8)} (h : Bundle a file certificates) :
    a.certificates file = .ok certificates := by
  unfold Acceptance.certificates
  rw [h.read, mapM_id_map_ok]
  cases certificates with
  | nil => exact absurd rfl h.full
  | cons c certificates => simp only [List.findSome?_eq_none_iff.mpr h.wellFormed]

/-- A file with which something is wrong is refused for it. -/
theorem BundleFault.certificates {fault : MaterialFault} (h : BundleFault a file fault) :
    a.certificates file = .error fault := by
  unfold Acceptance.certificates
  cases h with
  | unread hread => rw [hread, mapM_id_append_error]
  | empty hread =>
    rw [hread]
    rfl
  | @malformed certificates words hread hwords =>
    rw [hread, mapM_id_map_ok]
    cases certificates with
    | nil => exact absurd hwords (by simp)
    | cons c certificates => simp only [hwords]

/-- **Exactly the bundles are accepted.** -/
theorem certificates_eq_ok {certificates : List (List UInt8)} :
    a.certificates file = .ok certificates ↔ Bundle a file certificates := by
  refine ⟨fun h => ?_, Bundle.certificates⟩
  obtain ⟨certificates', hbundle⟩ | ⟨fault, hfault⟩ := bundle_or_fault a file
  · obtain rfl := Except.ok.inj (h.symm.trans hbundle.certificates)
    exact hbundle
  · exact absurd (h.symm.trans hfault.certificates) (by simp)

/-- **Every other file is refused** for what is wrong with it. -/
theorem certificates_eq_error {fault : MaterialFault} :
    a.certificates file = .error fault ↔ BundleFault a file fault := by
  refine ⟨fun h => ?_, BundleFault.certificates⟩
  obtain ⟨certificates, hbundle⟩ | ⟨fault', hfault⟩ := bundle_or_fault a file
  · exact absurd (h.symm.trans hbundle.certificates) (by simp)
  · obtain rfl := Except.error.inj (h.symm.trans hfault.certificates)
    exact hfault

/-! ## Items -/

/-- **An item fails**: what is wrong with it, if no item before it fails. -/
inductive Fails (a : Acceptance) (c : Certificates) : Material → Error → Prop
  | missing {item : Material} : c.item item = none → Fails a c item (.missing item)
  | bundle {item : Material} {file : List UInt8} {fault : MaterialFault} : item ≠ .clientKey →
      c.item item = some file → BundleFault a file fault → Fails a c item (.material fault)
  /-- One of the certificates cannot be an authority. -/
  | root {file : List UInt8} {roots : List (List UInt8)} {fault : TlsFault} :
      c.ca = some file → Bundle a file roots → roots.findSome? a.rootFault? = some fault →
        Fails a c .caCertificate (.tls fault)
  | key {file : List UInt8} {fault : Pem.Fault} :
      c.key = some file → a.key file = .error fault → Fails a c .clientKey (.material (.keyFile fault))
  /-- The key does not go with the client's certificate. -/
  | pair {file keyFile : List UInt8} {chain : List (List UInt8)} {key : Pem.PrivateKey} {fault : TlsFault} :
      c.client = some file → Bundle a file chain → c.key = some keyFile → a.key keyFile = .ok key →
        a.pairFault? chain key = some fault → Fails a c .clientKey (.tls fault)

/-- **An item is accepted**, and a configuration makes use of it. -/
def Accepted (a : Acceptance) (c : Certificates) (k : Configuration) : Material → Prop
  | .caCertificate => ∃ file roots, c.ca = some file ∧ Bundle a file roots ∧
      (∀ r ∈ roots, a.rootFault? r = none) ∧ k.trust = .roots roots
  | .clientCertificate => ∃ file identity, c.client = some file ∧ Bundle a file identity.chain ∧
      k.identity = some identity
  | .clientKey => ∃ file identity, c.key = some file ∧ a.key file = .ok identity.key ∧
      a.pairFault? identity.chain identity.key = none ∧ k.identity = some identity

/-- What is read of a certificate file that must be there. -/
def chainOf (a : Acceptance) (c : Certificates) (item : Material) : Except Error (List (List UInt8)) :=
  required item (c.item item) >>= fun file => materialResult (a.certificates file)

/-- What is read of the key file, which must be there. -/
def keyOf (a : Acceptance) (c : Certificates) : Except Error Pem.PrivateKey :=
  required .clientKey c.key >>= fun file => materialResult (a.privateKey file)

/-- **The fault of an item**, as far as it is looked for once no item before it fails. -/
def fault? (a : Acceptance) (c : Certificates) : Material → Option Error
  | .caCertificate =>
    match chainOf a c .caCertificate with
    | .error e => some e
    | .ok roots => (roots.findSome? a.rootFault?).map .tls
  | .clientCertificate => failure? (chainOf a c .clientCertificate)
  | .clientKey =>
    match keyOf a c with
    | .error e => some e
    | .ok key =>
      match chainOf a c .clientCertificate with
      | .error _ => none
      | .ok chain => (a.pairFault? chain key).map .tls

variable {c : Certificates} {item : Material} {e : Error}

theorem chainOf_eq_ok {chain : List (List UInt8)} :
    chainOf a c item = .ok chain ↔ ∃ file, c.item item = some file ∧ Bundle a file chain := by
  unfold chainOf
  simp only [← certificates_eq_ok]
  cases c.item item with
  | none => simp [required, bind, Except.bind]
  | some file => cases h : a.certificates file <;> simp [required, bind, Except.bind, materialResult, h]

theorem chainOf_eq_error : chainOf a c item = .error e ↔
    (c.item item = none ∧ e = .missing item) ∨
      ∃ file fault, c.item item = some file ∧ BundleFault a file fault ∧ e = .material fault := by
  unfold chainOf
  simp only [← certificates_eq_error]
  cases c.item item with
  | none => simp [required, bind, Except.bind, eq_comm]
  | some file =>
    cases h : a.certificates file <;> simp [required, bind, Except.bind, materialResult, h, eq_comm]

theorem keyOf_eq_ok {key : Pem.PrivateKey} :
    keyOf a c = .ok key ↔ ∃ file, c.key = some file ∧ a.key file = .ok key := by
  unfold keyOf Acceptance.privateKey
  cases c.key with
  | none => simp [required, bind, Except.bind]
  | some file => cases h : a.key file <;> simp [required, bind, Except.bind, materialResult, h]

theorem keyOf_eq_error : keyOf a c = .error e ↔
    (c.key = none ∧ e = .missing .clientKey) ∨
      ∃ file fault, c.key = some file ∧ a.key file = .error fault ∧ e = .material (.keyFile fault) := by
  unfold keyOf Acceptance.privateKey
  cases c.key with
  | none => simp [required, bind, Except.bind, eq_comm]
  | some file => cases h : a.key file <;> simp [required, bind, Except.bind, materialResult, h, eq_comm]

/-- A certificate file that cannot be used fails for what is wrong with it. -/
theorem fails_of_chainOf (hitem : item ≠ .clientKey) (h : chainOf a c item = .error e) :
    Fails a c item e := by
  obtain ⟨hnone, rfl⟩ | ⟨file, fault, hfile, hfault, rfl⟩ := chainOf_eq_error.mp h
  · exact .missing hnone
  · exact .bundle hitem hfile hfault

theorem fails_of_fault? (h : fault? a c item = some e) : Fails a c item e := by
  unfold fault? at h
  cases item with
  | caCertificate =>
    cases hchain : chainOf a c .caCertificate with
    | error e' =>
      simp only [hchain, Option.some.injEq] at h
      exact fails_of_chainOf (by decide) (h ▸ hchain)
    | ok roots =>
      simp only [hchain, Option.map_eq_some_iff] at h
      obtain ⟨fault, hfault, rfl⟩ := h
      obtain ⟨file, hfile, hroots⟩ := chainOf_eq_ok.mp hchain
      exact .root hfile hroots hfault
  | clientCertificate => exact fails_of_chainOf (by decide) (failure?_eq_some.mp h)
  | clientKey =>
    cases hkey : keyOf a c with
    | error e' =>
      simp only [hkey, Option.some.injEq] at h
      obtain ⟨hnone, rfl⟩ | ⟨file, fault, hfile, hfault, rfl⟩ := keyOf_eq_error.mp (h ▸ hkey)
      · exact .missing hnone
      · exact .key hfile hfault
    | ok key =>
      obtain ⟨keyFile, hkeyFile, hread⟩ := keyOf_eq_ok.mp hkey
      cases hchain : chainOf a c .clientCertificate with
      | error e' => simp [hkey, hchain] at h
      | ok chain =>
        simp only [hkey, hchain, Option.map_eq_some_iff] at h
        obtain ⟨fault, hfault, rfl⟩ := h
        obtain ⟨file, hfile, hbundle⟩ := chainOf_eq_ok.mp hchain
        exact .pair hfile hbundle hkeyFile hread hfault

theorem Fails.fault?_eq (h : Fails a c item e) : fault? a c item = some e := by
  unfold fault?
  cases h with
  | missing hnone =>
    cases item with
    | caCertificate => simp only [chainOf_eq_error.mpr (.inl ⟨hnone, rfl⟩)]
    | clientCertificate => exact failure?_eq_some.mpr (chainOf_eq_error.mpr (.inl ⟨hnone, rfl⟩))
    | clientKey => simp only [keyOf_eq_error.mpr (.inl ⟨hnone, rfl⟩)]
  | bundle hitem hfile hfault =>
    have hchain := chainOf_eq_error.mpr (.inr ⟨_, _, hfile, hfault, rfl⟩)
    cases item with
    | caCertificate => simp only [hchain]
    | clientCertificate => exact failure?_eq_some.mpr hchain
    | clientKey => exact absurd rfl hitem
  | root hfile hroots hfault =>
    have hchain : chainOf a c .caCertificate = .ok _ := chainOf_eq_ok.mpr ⟨_, hfile, hroots⟩
    simp only [hchain, hfault, Option.map_some]
  | key hfile hfault => simp only [keyOf_eq_error.mpr (.inr ⟨_, _, hfile, hfault, rfl⟩)]
  | pair hfile hbundle hkeyFile hread hfault =>
    have hchain : chainOf a c .clientCertificate = .ok _ := chainOf_eq_ok.mpr ⟨_, hfile, hbundle⟩
    simp only [keyOf_eq_ok.mpr ⟨_, hkeyFile, hread⟩, hchain, hfault, Option.map_some]

/-- **An item fails exactly for its fault.** -/
theorem fails_iff : Fails a c item e ↔ fault? a c item = some e :=
  ⟨Fails.fault?_eq, fails_of_fault?⟩

/-! ## Modes -/

/-- The authority's certificates are read, and then each must do. -/
theorem acceptRoots_eq (a : Acceptance) (c : Certificates) : acceptRoots a c.ca =
    chainOf a c .caCertificate >>= fun roots =>
      checkResult (roots.findSome? a.rootFault?) >>= fun _ => .ok roots := by
  unfold acceptRoots chainOf Certificates.item
  cases c.ca <;> rfl

/-- The client's certificate and key are read, and then they must go together. -/
theorem acceptClient_eq (a : Acceptance) (c : Certificates) : acceptClient a c.client c.key =
    chainOf a c .clientCertificate >>= fun chain => keyOf a c >>= fun key =>
      checkResult (a.pairFault? chain key) >>= fun _ => .ok ⟨chain, key⟩ := by
  unfold acceptClient chainOf keyOf Certificates.item
  cases c.client <;> cases c.key <;> rfl

theorem failure?_acceptRoots (a : Acceptance) (c : Certificates) :
    failure? (acceptRoots a c.ca) = fault? a c .caCertificate := by
  rw [acceptRoots_eq]
  unfold fault?
  cases chainOf a c .caCertificate with
  | error e => rfl
  | ok roots =>
    show failure? (checkResult (roots.findSome? a.rootFault?) >>= _) = (roots.findSome? a.rootFault?).map .tls
    cases roots.findSome? a.rootFault? <;> rfl

theorem failure?_acceptClient (a : Acceptance) (c : Certificates) : failure? (acceptClient a c.client c.key) =
    (fault? a c .clientCertificate).or (fault? a c .clientKey) := by
  rw [acceptClient_eq]
  unfold fault?
  cases chainOf a c .clientCertificate with
  | error e => rfl
  | ok chain =>
    cases keyOf a c with
    | error e => rfl
    | ok key =>
      show failure? (checkResult (a.pairFault? chain key) >>= _) = (a.pairFault? chain key).map .tls
      cases a.pairFault? chain key <;> rfl

/-- **The first item that fails** says why there is no configuration. -/
theorem failure?_configure (a : Acceptance) (mode : TlsMode) (c : Certificates) :
    failure? (configure a mode c) = mode.uses.findSome? (fault? a c) := by
  have htrust : failure? (trustOf a mode c.ca) = if mode.usesCa then fault? a c .caCertificate else none := by
    unfold trustOf
    split
    · rw [← failure?_acceptRoots]
      cases acceptRoots a c.ca <;> rfl
    · rfl
  have hidentity : failure? (identityOf a mode c.client c.key) = if mode.usesClient then
      (fault? a c .clientCertificate).or (fault? a c .clientKey) else none := by
    unfold identityOf
    split
    · rw [← failure?_acceptClient]
      cases acceptClient a c.client c.key <;> rfl
    · rfl
  have hcons : ∀ item items, (item :: items : List Material).findSome? (fault? a c) =
      (fault? a c item).or (items.findSome? (fault? a c)) := by
    intro item items
    rw [List.findSome?_cons]
    cases fault? a c item <;> rfl
  unfold configure
  rw [Settings.failure?_bind fun trust => Settings.failure?_bind (r := none) fun identity => rfl, htrust, hidentity]
  cases mode <;> simp [TlsMode.uses, TlsMode.usesCa, TlsMode.usesClient, hcons]

/-- Where a mode uses no item for it, what a configuration says is settled. -/
structure Suits (mode : TlsMode) (k : Configuration) : Prop where
  trust : .caCertificate ∉ mode.uses → k.trust = if mode = .noTls then .anyone else .publicRoots
  identity : .clientCertificate ∉ mode.uses → k.identity = none

theorem accepted_roots_iff {k : Configuration} : Accepted a c k .caCertificate ↔
    ∃ roots, acceptRoots a c.ca = .ok roots ∧ k.trust = .roots roots := by
  rw [acceptRoots_eq]
  constructor
  · rintro ⟨file, roots, hfile, hroots, hfit, htrust⟩
    refine ⟨roots, ?_, htrust⟩
    have hchain : chainOf a c .caCertificate = .ok roots := chainOf_eq_ok.mpr ⟨file, hfile, hroots⟩
    rw [hchain]
    show checkResult _ >>= _ = _
    rw [List.findSome?_eq_none_iff.mpr hfit]
    rfl
  · rintro ⟨roots, haccepted, htrust⟩
    obtain ⟨roots', hchain, haccepted⟩ := Settings.of_bind_ok haccepted
    obtain ⟨_, hcheck, hroots⟩ := Settings.of_bind_ok haccepted
    obtain rfl := Except.ok.inj hroots
    obtain ⟨file, hfile, hbundle⟩ := chainOf_eq_ok.mp hchain
    refine ⟨file, roots', hfile, hbundle, ?_, htrust⟩
    cases hfault : roots'.findSome? a.rootFault? with
    | none => exact List.findSome?_eq_none_iff.mp hfault
    | some fault =>
      rw [hfault] at hcheck
      cases hcheck

theorem accepted_client_iff {k : Configuration} :
    Accepted a c k .clientCertificate ∧ Accepted a c k .clientKey ↔
      ∃ identity, acceptClient a c.client c.key = .ok identity ∧ k.identity = some identity := by
  rw [acceptClient_eq]
  constructor
  · rintro ⟨⟨file, identity, hfile, hbundle, hidentity⟩, keyFile, identity', hkeyFile, hread, hpair, hsame⟩
    obtain rfl := Option.some.inj (hidentity.symm.trans hsame)
    refine ⟨identity, ?_, hidentity⟩
    have hchain : chainOf a c .clientCertificate = .ok identity.chain :=
      chainOf_eq_ok.mpr ⟨file, hfile, hbundle⟩
    rw [hchain]
    show keyOf a c >>= _ = _
    rw [keyOf_eq_ok.mpr ⟨keyFile, hkeyFile, hread⟩]
    show checkResult _ >>= _ = _
    rw [hpair]
    rfl
  · rintro ⟨identity, haccepted, hidentity⟩
    obtain ⟨chain, hchain, haccepted⟩ := Settings.of_bind_ok haccepted
    obtain ⟨key, hkey, haccepted⟩ := Settings.of_bind_ok haccepted
    obtain ⟨_, hcheck, hpair⟩ := Settings.of_bind_ok haccepted
    obtain rfl := Except.ok.inj hpair
    obtain ⟨file, hfile, hbundle⟩ := chainOf_eq_ok.mp hchain
    obtain ⟨keyFile, hkeyFile, hread⟩ := keyOf_eq_ok.mp hkey
    refine ⟨⟨file, _, hfile, hbundle, hidentity⟩, keyFile, _, hkeyFile, hread, ?_, hidentity⟩
    cases hfault : a.pairFault? chain key with
    | none => rfl
    | some fault =>
      rw [hfault] at hcheck
      cases hcheck

/-- A configuration says what is accepted, part by part. -/
theorem configure_eq_ok {mode : TlsMode} {k : Configuration} : configure a mode c = .ok k ↔
    trustOf a mode c.ca = .ok k.trust ∧ identityOf a mode c.client c.key = .ok k.identity := by
  unfold configure
  obtain ⟨trust, identity⟩ := k
  cases trustOf a mode c.ca <;> cases identityOf a mode c.client c.key <;>
    simp [bind, Except.bind, pure, Except.pure]

theorem configure_succeeds {mode : TlsMode} {k : Configuration} : configure a mode c = .ok k ↔
    Suits mode k ∧ ∀ item ∈ mode.uses, Accepted a c k item := by
  have htrust : trustOf a mode c.ca = .ok k.trust ↔
      if mode.usesCa then Accepted a c k .caCertificate
      else k.trust = if mode = .noTls then .anyone else .publicRoots := by
    rw [accepted_roots_iff]
    unfold trustOf
    split
    · cases acceptRoots a c.ca <;> simp [eq_comm]
    · simp [eq_comm]
  have hidentity : identityOf a mode c.client c.key = .ok k.identity ↔
      if mode.usesClient then Accepted a c k .clientCertificate ∧ Accepted a c k .clientKey
      else k.identity = none := by
    rw [accepted_client_iff]
    unfold identityOf
    split
    · cases acceptClient a c.client c.key <;> simp [eq_comm]
    · simp [eq_comm]
  have hsuits : Suits mode k ↔
      (.caCertificate ∉ mode.uses → k.trust = if mode = .noTls then .anyone else .publicRoots) ∧
        (.clientCertificate ∉ mode.uses → k.identity = none) :=
    ⟨fun h => ⟨h.trust, h.identity⟩, fun h => ⟨h.1, h.2⟩⟩
  rw [configure_eq_ok, htrust, hidentity, hsuits]
  cases mode <;> simp [TlsMode.uses, TlsMode.usesCa, TlsMode.usesClient, and_comm]

theorem configure_fails {mode : TlsMode} : configure a mode c = .error e ↔
    ∃ before item after, mode.uses = before ++ item :: after ∧ Fails a c item e ∧
      ∀ i ∈ before, ∀ e', ¬Fails a c i e' := by
  simp only [fails_iff, ← Option.eq_none_iff_forall_ne_some]
  rw [← failure?_eq_some, failure?_configure, List.findSome?_eq_some_iff]

/-- The octets of items that a mode does not use play no part. -/
theorem configure_congr {mode : TlsMode} {c' : Certificates}
    (h : ∀ item ∈ mode.uses, c'.item item = c.item item) : configure a mode c' = configure a mode c := by
  obtain ⟨hroots, hcertificate, hkey⟩ := mode.mem_uses
  have htrust : trustOf a mode c'.ca = trustOf a mode c.ca := by
    unfold trustOf
    split
    · rename_i hca
      have hsame : c'.ca = c.ca := h .caCertificate (hroots.mpr hca)
      rw [hsame]
    · rfl
  have hidentity : identityOf a mode c'.client c'.key = identityOf a mode c.client c.key := by
    unfold identityOf
    split
    · rename_i hclient
      have hchain : c'.client = c.client := h .clientCertificate (hcertificate.mpr hclient)
      have hsame : c'.key = c.key := h .clientKey (hkey.mpr hclient)
      rw [hchain, hsame]
    · rfl
  unfold configure
  rw [htrust, hidentity]

/-! ## Decisions -/

/-- **A malformed entry** of a certificate file: it cannot be read, or is no certificate. -/
def IsMalformed (a : Acceptance) : Except Pem.Fault (List UInt8) → Prop
  | .error _ => True
  | .ok certificate => a.certificateFault? certificate ≠ none

/-- No bundle has a malformed entry, wherever it stands. -/
theorem Bundle.not_isMalformed {certificates : List (List UInt8)} (h : Bundle a file certificates)
    {entry : Except Pem.Fault (List UInt8)} (hentry : entry ∈ a.entries file) : ¬IsMalformed a entry := by
  rw [h.read] at hentry
  obtain ⟨certificate, hmem, rfl⟩ := List.mem_map.mp hentry
  exact not_not_intro (h.wellFormed certificate hmem)

/-- **Decided by the items in use**: what becomes of a mode and of what is given for the three items. -/
structure Decided (a : Acceptance) (mode : TlsMode) (c : Certificates) : Prop where
  /-- What is given for the other items plays no part. -/
  agreed : ∀ c' : Certificates, (∀ item ∈ mode.uses, c'.item item = c.item item) →
    configure a mode c' = configure a mode c
  /-- A configuration there is exactly if every item is given and accepted. -/
  succeeds : ∀ k, configure a mode c = .ok k ↔ Suits mode k ∧ ∀ item ∈ mode.uses, Accepted a c k item
  /-- Otherwise the first item that fails says why there is none. -/
  fails : ∀ e, configure a mode c = .error e ↔
    ∃ before item after, mode.uses = before ++ item :: after ∧ Fails a c item e ∧
      ∀ i ∈ before, ∀ e', ¬Fails a c i e'
  /-- One malformed entry of a certificate file is enough. -/
  spoilt : ∀ before item after file entry, mode.uses = before ++ item :: after → item ≠ .clientKey →
    c.item item = some file → entry ∈ a.entries file → IsMalformed a entry →
    (∀ i ∈ before, ∀ e', ¬Fails a c i e') →
      ∃ fault, BundleFault a file fault ∧ configure a mode c = .error (.material fault)

/-- **A configuration is decided by the items that its mode uses**, whatever is accepted and given. -/
theorem configure_decided (a : Acceptance) (mode : TlsMode) (c : Certificates) : Decided a mode c where
  agreed _ h := configure_congr h
  succeeds _ := configure_succeeds
  fails _ := configure_fails
  spoilt before item after file entry huses hitem hfile hentry hmalformed hbefore := by
    obtain ⟨certificates, hbundle⟩ | ⟨fault, hfault⟩ := bundle_or_fault a file
    · exact absurd hmalformed (hbundle.not_isMalformed hentry)
    · have hfails : Fails a c item (.material fault) := .bundle hitem hfile hfault
      exact ⟨fault, hfault, configure_fails.mpr ⟨before, item, after, huses, hfails, hbefore⟩⟩

/-- A file with one entry, which is no certificate. -/
def notACertificate : List UInt8 :=
  Pem.ascii "-----BEGIN CERTIFICATE-----\nbm90IGEgY2VydGlmaWNhdGU=\n-----END CERTIFICATE-----\n"

/-- The authority's certificate is looked at first where it is used, and plays no part where it is not. -/
theorem configure_decided_malformed :
    (∃ fault, configure .standard .selfSignedMutualTls { ca := some notACertificate } =
        .error (.material fault)) ∧
      configure .standard .caMutualTls { ca := some notACertificate } = .error (.missing .clientCertificate) := by
  have hentry : (.ok (Pem.ascii "not a certificate")) ∈ Acceptance.standard.entries notACertificate := by
    decide +kernel
  have hmalformed : IsMalformed .standard (.ok (Pem.ascii "not a certificate")) := by
    unfold IsMalformed
    decide +kernel
  constructor
  · obtain ⟨fault, -, hrefused⟩ := (configure_decided .standard .selfSignedMutualTls
      { ca := some notACertificate }).spoilt [] .caCertificate _ _ _ rfl (by decide) rfl hentry hmalformed
      (by simp)
    exact ⟨fault, hrefused⟩
  · exact ((configure_decided .standard .caMutualTls { ca := some notACertificate }).fails _).mpr
      ⟨[], .clientCertificate, _, rfl, .missing rfl, by simp⟩

end Tls

end BorderSync
