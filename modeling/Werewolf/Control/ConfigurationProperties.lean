import Mathlib.Algebra.Group.Action.Defs
import Mathlib.Algebra.Order.BigOperators.Group.List
import Werewolf.Control.Chains
import Werewolf.State.ValidationProperties

/-! The files outside the manifest. Whatever a command saves in one of them, the
next start reads: it passes the same check, and fits the limit of its file. -/

namespace Werewolf.Control
open Library Procedure Governance Policy
open State hiding name
open Storage hiding name

variable {permit : Liberty → Prop} {host : Host} {environment : Environment} {system : System}

section Candidates

variable {services next : List ServiceDefinition} {name peer target kind : String}
  {routes : List Route}

theorem ite_ok_iff {α : Type} {valid : Bool} {code : Code} {candidate accepted : α} :
    (if valid then .ok candidate else .error code : Except Code α) = .ok accepted ↔
      valid = true ∧ candidate = accepted := by
  cases valid <;> simp

private theorem validated_ok {candidate : List ServiceDefinition}
    (accepted : validated candidate = .ok services) : validateServices services = true := by
  obtain ⟨valid, rfl⟩ := ite_ok_iff.mp accepted
  exact valid

theorem serviceAdd_valid (accepted : serviceAdd services name peer target kind = .ok next) :
    validateServices next = true := by
  simp only [serviceAdd, ite_eq_ok_iff] at accepted
  obtain ⟨_, _, accepted⟩ := accepted
  split at accepted
  · cases accepted
  · exact validated_ok accepted

theorem serviceRemove_valid (accepted : serviceRemove services name = .ok next) : validateServices next = true := by
  simp only [serviceRemove, ite_eq_ok_iff] at accepted
  exact validated_ok accepted.2.2

theorem serviceProviderAdd_valid (accepted : serviceProviderAdd services name peer target kind = .ok next) :
    validateServices next = true := by
  obtain ⟨_, _, accepted⟩ := bind_eq_ok.mp accepted
  exact validated_ok accepted

theorem serviceProviderRemove_valid (accepted : serviceProviderRemove services name peer = .ok next) :
    validateServices next = true := by
  obtain ⟨_, _, accepted⟩ := bind_eq_ok.mp accepted
  exact validated_ok accepted

variable {addressing : Addressing} {socketText : SocketAddr → String}

theorem servicePublish_valid {published next : List PublishedService}
    (accepted : servicePublish addressing socketText published name kind target = .ok next) :
    validatePublished addressing socketText next = true := by
  simp only [servicePublish, ite_eq_ok_iff] at accepted
  obtain ⟨_, _, accepted⟩ := accepted
  split at accepted
  · cases accepted
  · obtain ⟨valid, rfl⟩ := ite_ok_iff.mp accepted
    exact valid

theorem serviceUnpublish_valid {published next : List PublishedService}
    (accepted : serviceUnpublish addressing socketText published name = .ok next) :
    validatePublished addressing socketText next = true := by
  simp only [serviceUnpublish, ite_eq_ok_iff, ite_ok_iff] at accepted
  obtain ⟨_, _, valid, rfl⟩ := accepted
  exact valid

private theorem validatedRoutes_ok {candidate : List Route}
    (accepted : validatedRoutes candidate = .ok routes) : validateRoutes routes = true := by
  obtain ⟨valid, rfl⟩ := ite_ok_iff.mp accepted
  exact valid

theorem routeSet_valid {next : List Route} {members : List String} {via hop : String}
    (accepted : routeSet routes members peer via hop = .ok next) : validateRoutes next = true := by
  unfold routeSet at accepted
  split at accepted
  · cases accepted
  · rw [ite_eq_ok_iff] at accepted
    exact validatedRoutes_ok accepted.2

theorem routeRemove_valid {next : List Route} (accepted : routeRemove routes peer = .ok next) :
    validateRoutes next = true := by
  simp only [routeRemove, ite_eq_ok_iff] at accepted
  exact validatedRoutes_ok accepted.2

end Candidates

section Lengths

theorem validAddress_plain (faithful : host.Faithful) {address : String}
    (valid : validAddress host.toAddressing address = true) :
    ∀ character ∈ address.toList, Json.escape character = [character] := by
  simp only [validAddress, Bool.and_eq_true, Option.any_eq_true] at valid
  obtain ⟨_, socket, parsed, _⟩ := valid
  obtain ⟨endpoint, stripped, parsed⟩ := Option.bind_eq_some_iff.mp parsed
  have rest := faithful.socketPlain _ socket parsed
  rw [String.toList_ofList] at rest
  have schemes : ∀ character ∈ "quic://".toList ++ "tcp://".toList,
      Json.escape character = [character] := by simp [Json.escape]
  intro character member
  rcases Option.or_eq_some_iff.mp stripped with quic | ⟨_, tcp⟩
  · rw [stripLeading_eq_some.mp quic] at member
    rcases List.mem_append.mp member with scheme | later
    · exact schemes character (List.mem_append_left _ scheme)
    · exact rest character later
  · rw [stripLeading_eq_some.mp tcp] at member
    rcases List.mem_append.mp member with scheme | later
    · exact schemes character (List.mem_append_right _ scheme)
    · exact rest character later

theorem advertiseText_length (faithful : host.Faithful) {addresses : List String}
    (valid : validateAdvertised host.toAddressing addresses = true) (version : UInt8) :
    (host.advertiseText (version, addresses)).length ≤ advertiseLimit := by
  have few : addresses.length ≤ maxAddresses ∧
      ∀ address ∈ addresses, validAddress host.toAddressing address = true := by
    simp only [validateAdvertised, checkAddresses, Bool.or_eq_true, Bool.and_eq_true,
      decide_eq_true_eq, List.all_eq_true] at valid
    rcases valid with rfl | ⟨⟨_, few⟩, each⟩
    · simp
    · exact ⟨few, each⟩
  have each : ∀ address ∈ addresses, (Json.toVec Json.string address).length + 8 ≤ 266 := by
    intro address member
    have valid := few.2 address member
    rw [Json.length_toVec_string (validAddress_plain faithful valid)]
    simp only [validAddress, maxAddressLen, Bool.and_eq_true] at valid
    have size : address.utf8ByteSize ≤ 256 := of_decide_eq_true valid.1
    omega
  have total := faithful.advertiseLength version addresses
  have strings := List.sum_le_card_nsmul
    (addresses.map (fun address => (Json.toVec Json.string address).length + 8)) 266 (by
      simpa only [List.forall_mem_map] using each)
  have count : addresses.length ≤ 4 := few.1
  simp only [List.length_map, smul_eq_mul] at strings
  simp only [advertiseLimit]
  omega

private theorem toVec_string_le {text : String} {count : Nat} (short : text.toList.length ≤ count) :
    (Json.toVec Json.string text).length ≤ 4 * (6 * count + 2) := by
  have bytes := Json.length_toVec_le Json.string text
  have escaped := Json.length_string_le text
  omega

private theorem key_length (faithful : host.Faithful) {text : String} {bytes : Key}
    (decoded : State.key host.toExternal text = some bytes) : text.toList.length ≤ 44 := by
  have encoded := faithful.base64Length bytes.val
  rw [(key_iff.mp decoded).2, bytes.2] at encoded
  have short : text.toList.length ≤ byteLength text := Json.length_le_byteLength text
  omega

private theorem length_hexish (bytes : List UInt8) : (hexish bytes).length ≤ 3 * bytes.length := by
  unfold hexish
  induction bytes with
  | nil => simp
  | cons byte rest ih =>
    cases rest with
    | nil => simp [List.intercalate]
    | cons next rest =>
      simp only [List.map_cons, List.intercalate, List.intersperse_cons_cons,
        List.flatten_cons, List.length_append, List.length_cons, List.length_nil] at ih ⊢
      omega

theorem peltText_length (faithful : host.Faithful) {pelt : PeltIdentity}
    (valid : identity host.toExternal host.verifyingKey pelt = true) :
    (host.peltText pelt).length ≤ peltLimit := by
  unfold identity at valid
  split at valid
  · rename_i bytes secret publicKey secretKey
    simp only [Bool.and_eq_true, decide_eq_true_eq] at valid
    obtain ⟨_, derived⟩ := valid
    have fingerprintLength : pelt.fingerprint.toList.length ≤ 29 := by
      obtain ⟨data, _, same⟩ := Option.map_eq_some_iff.mp derived
      have hex := length_hexish ((host.blake3 data).val.take 8)
      have taken : ((host.blake3 data).val.take 8).length ≤ 8 := List.length_take_le _ _
      rw [← same, String.toList_ofList, List.length_append,
        show "wwp1:".toList.length = 5 from by decide]
      omega
    have total := faithful.peltLength pelt
    have first := toVec_string_le (key_length faithful publicKey)
    have second := toVec_string_le (key_length faithful secretKey)
    have third := toVec_string_le fingerprintLength
    simp only [peltLimit]
    omega
  · cases valid

theorem parseAutoSync_encode (enabled : Bool) : (encodeAutoSync enabled).length ≤ autoSyncLimit ∧
      parseAutoSync (encodeAutoSync enabled) = some enabled := by
  decide +revert

end Lengths

section Acceptance

variable {data : List UInt8}

theorem accepts_services : host.accepts servicesFile data =
    (decide (data.length ≤ documentLimit) && (parseServices host data).isSome) := rfl

theorem accepts_published : host.accepts publishedFile data =
    (decide (data.length ≤ documentLimit) && (parsePublished host data).isSome) := rfl

theorem accepts_routes : host.accepts routesFile data =
    (decide (data.length ≤ documentLimit) && (parseRoutes host data).isSome) := rfl

theorem accepts_advertise : host.accepts advertiseFile data =
    (decide (data.length ≤ advertiseLimit) && (parseAdvertise host data).isSome) := rfl

theorem accepts_contacts : host.accepts contactsFile data =
    decide (data.length ≤ documentLimit) := rfl

theorem accepts_autoSync : host.accepts autoSyncFile data =
    (decide (data.length ≤ autoSyncLimit) && (parseAutoSync data).isSome) := rfl

theorem accepts_pelt : host.accepts peltFile data =
    (decide (data.length ≤ peltLimit) && (parsePelt host data).isSome) := rfl

end Acceptance

section Commands

variable (fares : environment.Fares permit)

include fares

theorem persistFile_follows {α : Type} {candidate : Except Code α} {file : String} {text : α → List UInt8}
    {publish : α → Node → Node} {refusal : Code} {status : Status}
    (publishes : ∀ value node, Publishes node.generation node (publish value node) ∧
      Retains node (publish value node)) (side : file ∈ sideFiles)
    (accepted : ∀ value, candidate = .ok value → host.Faithful →
      (text value).length ≤ documentLimit → host.accepts file (text value) = true) :
    Traces (Transition permit host) system (persistFile environment candidate file text publish refusal status) := by
  refine follows_liftExcept (fun value found => follows_saved ?_)
  obtain ⟨published, retains⟩ := publishes value system.node
  refine follows_store (fares.documents 0) ?_ retains published.dying side (accepted value found)
  exact .of_same (congrArg Authority.Gate.locked published.gate) published.silver
    retains.governance published.pelt published.dying
    (fun degraded => published.storageDegraded.trans degraded)

theorem persistServices_follows {candidate : Except Code (List ServiceDefinition)}
    (valid : ∀ services, candidate = .ok services → validateServices services = true) (status : Status) :
    Traces (Transition permit host) system (persistServices host environment candidate status) := by
  refine persistFile_follows fares (fun _ _ => ⟨⟨rfl, rfl, rfl, rfl, rfl, rfl⟩, rfl, rfl, rfl, rfl, rfl⟩)
    (by decide) (fun services found faithful fits => ?_)
  simp [accepts_services, parseServices, faithful.services, Option.filter, valid services found, fits]

theorem persistPublished_follows {candidate : Except Code (List PublishedService)}
    (valid : ∀ published, candidate = .ok published →
      validatePublished host.toAddressing host.socketText published = true) (status : Status) :
    Traces (Transition permit host) system (persistPublished host environment candidate status) := by
  refine persistFile_follows fares (fun _ _ => ⟨⟨rfl, rfl, rfl, rfl, rfl, rfl⟩, rfl, rfl, rfl, rfl, rfl⟩)
    (by decide) (fun published found faithful fits => ?_)
  simp [accepts_published, parsePublished, faithful.published, Option.filter, valid published found, fits]

theorem persistRoutes_follows {candidate : Except Code (List Route)}
    (valid : ∀ routes, candidate = .ok routes → validateRoutes routes = true) (status : Status) :
    Traces (Transition permit host) system (persistRoutes host environment candidate status) := by
  refine persistFile_follows fares (fun _ _ => ⟨⟨rfl, rfl, rfl, rfl, rfl, rfl⟩, rfl, rfl, rfl, rfl, rfl⟩)
    (by decide) (fun routes found faithful fits => ?_)
  simp [accepts_routes, parseRoutes, faithful.routes, Option.filter, valid routes found, fits]

theorem discoverAdvertise_follows (addresses : String) :
    Traces (Transition permit host) system (discoverAdvertise host environment addresses) := by
  refine persistFile_follows fares (fun _ _ => ⟨⟨rfl, rfl, rfl, rfl, rfl, rfl⟩, rfl, rfl, rfl, rfl, rfl⟩)
    (by decide) (fun advertised found faithful _ => ?_)
  split at found
  · rename_i valid
    cases found
    have fits := advertiseText_length faithful valid 1
    simp [accepts_advertise, parseAdvertise, faithful.advertise, Option.filter, valid, fits]
  · cases found

theorem governanceAutoSync_follows (state : String) :
    Traces (Transition permit host) system (governanceAutoSync environment state) := by
  refine persistFile_follows fares (fun _ _ => ⟨⟨rfl, rfl, rfl, rfl, rfl, rfl⟩, rfl, rfl, rfl, rfl, rfl⟩)
    (by decide) (fun enabled _ _ _ => ?_)
  obtain ⟨fits, parsed⟩ := parseAutoSync_encode enabled
  simp [accepts_autoSync, parsed, fits]

theorem discoverNetwork_follows : Traces (Transition permit host) system (discoverNetwork host environment) := by
  refine follows_live (follows_liftExcept (fun _ _ => follows_check (fun _ => ?_)))
  cases environment.contacts with
  | none => exact follows_pure trivial
  | some data =>
    simp only
    split
    · exact follows_pure trivial
    · refine follows_bind (follows_store (fares.documents 0) (.of_same rfl rfl rfl rfl rfl id)
        ⟨rfl, rfl, rfl, rfl, rfl⟩ rfl (show contactsFile ∈ sideFiles by decide)
        (fun _ fits => ?_)) (fun _ _ _ => follows_pure trivial)
      simpa [accepts_contacts] using fits

omit fares in
theorem unadmitted_of_initialized {external : External} {node : Node} {pelt : PeltIdentity}
    (absent : node.pelt = none) (unadmitted : ({ node with pelt := some pelt } : Node).unadmitted external = true) :
    node.unadmitted external = true := by
  unfold Node.unadmitted State.unadmitted at unadmitted ⊢
  cases governed : node.governance with
  | none => simp [governed] at unadmitted
  | some head =>
    simp only [governed, Node.ownKey, absent, Option.bind_none, Option.bind_some, admitsOwn,
      Bool.not_eq_true', Option.isNone_eq_false_iff] at unadmitted ⊢
    cases active : head.activatedAt with
    | some sequence => rfl
    | none =>
      cases own : publicKey external pelt.publicKeyB64 with
      | none => simp [own, active] at unadmitted
      | some key => simp [own, Head.admits, active] at unadmitted

theorem peltInit_follows : Traces (Transition permit host) system (peltInit host environment) := by
  refine follows_alter_bind .refl (follows_check (fun absent => follows_check (fun _ =>
    follows_check (fun valid => follows_check (fun _ => follows_saved ?_)))))
  have absent : system.node.pelt = none := Option.isNone_iff_eq_none.mp absent
  refine follows_alter ?_ trivial
  split
  · exact .refl
  · refine .single (.stored (fares.documents 0) ?_ rfl (.inl ⟨show peltFile ∈ sideFiles by decide,
      ⟨rfl, rfl, rfl, rfl, rfl⟩, fun faithful _ => ?_⟩))
    · exact ⟨.inl, .inl, .inl, fun unadmitted => .inl (unadmitted_of_initialized absent unadmitted), .inl, id, .inl⟩
    · have fits := peltText_length faithful valid
      simp [accepts_pelt, parsePelt, faithful.pelt, Option.filter, valid, fits]

theorem manifestMigrate_follows (alive : system.node.dying = false) :
    Traces (Transition permit host) system (manifestMigrate host environment) := by
  refine follows_live (follows_check (fun flat => ?_))
  have flat : system.node.generation = none := Option.isNone_iff_eq_none.mp flat
  exact follows_alter_bind (.single (.migrated fares.protectedState alive flat))
    (follows_live (follows_check (fun _ => follows_pure trivial)))

end Commands

end Werewolf.Control
