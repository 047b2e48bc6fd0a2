import BdevUbi.Addressing
import BdevUbi.RpcAnswers

/-!
The saved configuration. `ubi_write_config_json` writes a request to create the ubi bdev
again. In every run that request decodes to the options from which the ubi bdev came, although
the path may have been cut off and the base bdev may have been named by an alias, and what
`bdev_ubi_create` makes of them is the same ubi bdev.
-/

namespace BdevUbi
open Function (update)

variable {J : Type} {world : RpcWorld J} {bases : BaseId → BaseBdev} {s t : RpcState J}
  {h : Host} {id : UbiId}

/-- A request has all its strings, and they are C strings. -/
structure RpcConstructUbi.Formed (req : RpcConstructUbi) : Prop where
  name : ∃ p, req.name = some p ∧ hasNul p.text = false
  imagePath : ∃ p, req.imagePath = some p ∧ hasNul p.text = false

theorem formed_of_decoded (lawful : world.json.Lawful) {x : RpcId} {strdup : String → Bool}
    {params : J}
    (valid : (decodeRequest world.json x rpcConstructUbiDecoders strdup params .defaults).ok =
      true) :
    (decodeRequest world.json x rpcConstructUbiDecoders strdup params .defaults).out.Formed := by
  rw [decodeRequest_construct]
  have given (key : JsonKey) (known : key ∈ rpcConstructUbiDecoders.map JsonDecoder.key)
      (required : key.optional = false) (kind : key.kind = .string) :
      ∃ p, ((world.json.decodeObject (rpcConstructUbiDecoders.map JsonDecoder.key) strdup
        params).string key.name).map (CString.mk x key.name) = some p ∧ hasNul p.text = false := by
    obtain ⟨text, stored⟩ := lawful.decoded_required _ _ _ valid key known required kind
    exact ⟨⟨x, key.name, text⟩, by rw [stored]; rfl, lawful.decoded_text _ _ _ _ _ stored⟩
  exact ⟨given ⟨"name", .string, false⟩ (by simp [rpcConstructUbiDecoders, JsonDecoder.key,
      JsonTarget.kind]) rfl rfl,
    given ⟨"image_path", .string, false⟩ (by simp [rpcConstructUbiDecoders, JsonDecoder.key,
      JsonTarget.kind]) rfl rfl⟩

theorem ubiFinishCreate_record {status : Int} (bad : status ≠ 0) (h : Host) (id : UbiId)
    (ret : Int) : (ubiFinishCreate h id status ret).record = update h.record id none := by
  rw [ubiFinishCreate_fails bad]
  cases known : h.record id with
  | none =>
      show h.record = _
      rw [← known, Function.update_eq_self]
  | some r => exact (freeUbiBdev_frame h id r).2.2.2

theorem initDevice_fields {opts : UbiBdevOpts} {base : BaseBdev} {dev : UbiBdev}
    (h : initDevice opts base = .ok dev) : dev.stripeSizeKb = opts.stripeSizeKb ∧
      dev.noSync = opts.noSync ∧ dev.copyOnRead = opts.copyOnRead := by
  unfold initDevice at h
  split at h
  · cases h
  · obtain ⟨params, _, rfl⟩ := exists_of_map_ok h
    exact ⟨rfl, rfl, rfl⟩

/-- The fields of a ubi bdev are those of its options. -/
structure Configured (bases : BaseId → BaseBdev) (opts : UbiBdevOpts) (r : UbiBdevRecord) :
    Prop where
  name : r.name = opts.name
  baseBdev : r.baseBdev = some opts.baseBdev
  imagePath : r.imagePath = storedPath opts.imagePath
  directio : r.directio = opts.directio
  device : ∃ dev, r.device = some dev ∧ initDevice opts (bases opts.baseBdev) = .ok dev

theorem Configured.withTable {opts : UbiBdevOpts} {r : UbiBdevRecord}
    (configured : Configured bases opts r) (table : Option StripeTable) :
    Configured bases opts { r with table := table } :=
  ⟨configured.name, configured.baseBdev, configured.imagePath, configured.directio,
    configured.device⟩

theorem bdevUbiCreate_record {opts : UbiBdevOpts} {env : CreateEnv} {r : UbiBdevRecord}
    (known : (bdevUbiCreate bases h id (some opts) env).record id = some r) :
    Configured bases opts r := by
  have failed {f : Host} {status ret : Int} (bad : status ≠ 0)
      (known : (ubiFinishCreate f id status ret).record id = some r) : Configured bases opts r := by
    simp [ubiFinishCreate_record bad] at known
  unfold bdevUbiCreate at known
  dsimp only at known
  split at known
  · exact failed (by decide) known
  split at known
  · exact failed (by decide) known
  next named =>
  have duplicated : opts.name.filter (fun _ => env.strdup) = opts.name := by
    cases name : opts.name with
    | none => rfl
    | some text =>
        rw [name] at named
        cases memory : env.strdup <;> simp_all
  split at known
  · next bad => exact failed bad known
  split at known
  · next rc refused =>
    refine failed ?_ known
    rw [initDevice_error refused]
    decide
  next device layout =>
  unfold ubiStartReadMetadata at known
  split at known
  · exact failed (by decide) known
  dsimp only at known
  split at known
  · next bad => exact failed bad known
  · simp only [Host.setRecord, Function.update_self, Option.some.injEq] at known
    subst known
    exact ⟨duplicated, rfl, rfl, rfl, device, rfl, layout⟩

theorem CreateOutcome.others {g : Host} (outcome : CreateOutcome bases h id g) {j : UbiId}
    (other : j ≠ id) : g.record j = h.record j := by
  cases outcome <;> exact Function.update_of_ne other ..

/-- Every ubi bdev comes from a request. -/
def Requested (world : RpcWorld J) (s : RpcState J) : Prop :=
  ∀ id r, s.host.record id = some r → ∃ req, s.request id = some req ∧ req.Formed ∧
    Configured world.bases (req.opts world) r

namespace Requested

theorem lower {gone : Option UbiId} (inv : Requested world s) (lower : Lower gone s.host t.host)
    (same : t.request = s.request) : Requested world t := by
  intro id r known
  obtain ⟨r', known', kept⟩ := lower.record id r known
  obtain ⟨req, request, formed, configured⟩ := inv id r' known'
  refine ⟨req, by rw [same, request], formed, ?_⟩
  rw [kept]
  exact configured.withTable r.table

theorem rpcCreate (lawful : world.json.Lawful) {params : J} {env : RpcEnv}
    (inv : Requested world s) (h : rpcBdevUbiCreate world s id params env = .ok t) :
    Requested world t := by
  unfold rpcBdevUbiCreate at h
  dsimp only at h
  split at h
  · obtain ⟨held, _, rfl⟩ := exists_of_map_ok h
    exact inv
  split at h
  · cases h
  · next accepted _ =>
    obtain ⟨held, _, rfl⟩ := exists_of_map_ok h
    intro j r known
    by_cases same : j = id
    · subst same
      exact ⟨_, Function.update_self .., formed_of_decoded lawful (by simpa using accepted),
        bdevUbiCreate_record known⟩
    · have other : s.host.record j = some r := by
        rw [← known]
        exact ((bdevUbiCreate_outcome _ _).others same).symm
      obtain ⟨req', request, rest⟩ := inv j r other
      exact ⟨req', (Function.update_of_ne same ..).trans request, rest⟩

end Requested

theorem requested_step (lawful : world.json.Lawful) {e : RpcEvent J} (inv : Requested world s)
    (h : rpcStep world s e = .ok t) : Requested world t := by
  cases e with
  | create id params env =>
      rw [rpcStep] at h
      split at h
      · cases h
      · have asked : Requested world { s with received := .create id :: s.received } := inv
        exact asked.rpcCreate lawful h
  | delete n params strdup =>
      rw [rpcStep] at h
      split at h
      · cases h
      · unfold rpcBdevUbiDelete at h
        generalize decodeRequest world.json (.delete n) rpcDeleteUbiDecoders strdup params none = d
          at h
        dsimp only at h
        split at h
        · cases h
          exact inv
        · obtain ⟨held, _, rfl⟩ := exists_of_map_ok h
          have below := delete_lower s.host (textOf d.out)
          rw [bdevUbiDelete_eq] at below ⊢
          cases target : deleteTarget s.host (textOf d.out) with
          | none => exact inv
          | some id =>
              rw [target] at below
              exact inv.lower below rfl
  | destruct id thread =>
      rw [rpcStep] at h
      obtain ⟨g, moves, rfl⟩ := exists_of_map_ok h
      exact inv.lower (hostStep_lower (by simp) moves) rfl
  | metadataRead _ _ _ _ | closeBase _ _ | removeBase _ | baseEvent _ _ _ =>
      rw [rpcStep] at h
      obtain ⟨g, moves, rfl⟩ := exists_of_map_ok h
      exact inv.lower (hostStep_lower (by simp) moves) rfl

theorem requested_reach (lawful : world.json.Lawful) {allowed : RpcState J → RpcEvent J → Prop}
    (run : RpcReach world allowed s) : Requested world s :=
  run.invariant (P := Requested world) (fun _ _ known => by cases known)
    fun _ inv _ moves => requested_step lawful inv moves

theorem registered_record {l : Lives bases} (sim : Simulates h l)
    (registered : h.registered id = true) : ∃ r, h.record id = some r := by
  obtain ⟨m, u, phase⟩ := sim.registered_phase registered
  have entry := sim.entry id
  rw [phase] at entry
  exact ⟨m.record, congrArg Entry.record entry⟩

theorem utf8_injective {a b : String} (same : utf8 a = utf8 b) : a = b :=
  String.toByteArray_inj.mp (ByteArray.ext (Array.toList_inj.mp same))

section Written

variable {registry : Registry} {r : UbiBdevRecord} {name : String} {base : BaseId} {dev : UbiBdev}

theorem configMembers_taken (nameText : hasNul name = false) (pathText : 0 ∉ r.imagePath) :
    Takes (rpcConstructUbiDecoders.map JsonDecoder.key)
      (configMembers registry r name base dev) := by
  have clean {text : String} (h : hasNul text = false) : 0 ∉ utf8 text := by
    simpa [hasNul] using h
  have small := stripeSizeKb_le dev
  refine ⟨by decide, ?_, ?_, ?_⟩
  · simp [configMembers]
  · simp [configMembers, rpcConstructUbiDecoders, JsonDecoder.key, JsonTarget.kind,
      JsonValue.kind, JsonValue.Valid, clean nameText, clean (registry.name_text base), pathText]
    omega
  · simp [configMembers, rpcConstructUbiDecoders, JsonDecoder.key]

/-- What is written decodes to the fields it was written from. -/
theorem config_decodes {json : SpdkJson J} (lawful : json.Lawful) {params : J} (x : RpcId)
    (nameText : hasNul name = false) (pathText : 0 ∉ r.imagePath)
    (written : json.writeObject (configMembers registry r name base dev) = some params) :
    (decodeRequest json x rpcConstructUbiDecoders (fun _ => true) params .defaults).ok = true ∧
      ∃ path, utf8 path = r.imagePath ∧
        (decodeRequest json x rpcConstructUbiDecoders (fun _ => true) params .defaults).out =
          ⟨some ⟨x, "name", name⟩, some ⟨x, "image_path", path⟩,
            some ⟨x, "base_bdev", registry.name base⟩, dev.stripeSizeKb, dev.noSync,
            dev.copyOnRead, r.directio⟩ := by
  obtain ⟨valid, stores⟩ :=
    lawful.decode_write _ _ _ written (configMembers_taken nameText pathText)
  refine ⟨valid, ?_⟩
  rw [decodeRequest_construct]
  simp only [configMembers, List.forall_mem_cons, JsonDecoded.Stores] at stores
  obtain ⟨⟨name', same, storedName⟩, ⟨base', same', storedBase⟩, ⟨path, samePath, storedPath⟩,
    size, copy, direct, sync, _⟩ := stores
  obtain rfl : name' = name := utf8_injective same
  obtain rfl : base' = registry.name base := utf8_injective same'
  exact ⟨path, samePath, by
    simp only [RpcConstructUbi.ofDecoded, storedName, storedBase, storedPath, size, copy, direct,
      sync, Option.map_some, Option.getD_some]⟩

end Written

/-- The request that `rpc_bdev_ubi_create` decodes from an entry when memory is found. -/
def savedRequest (world : RpcWorld J) (config : ConfigEntry J) (x : RpcId) :
    Decoding RpcConstructUbi :=
  decodeRequest world.json x rpcConstructUbiDecoders (fun _ => true) config.params .defaults

/-- The two ubi bdevs have the same name, base bdev, image path, flags and layout. -/
structure UbiBdevRecord.SameConfig (r r' : UbiBdevRecord) : Prop where
  name : r.name = r'.name
  baseBdev : r.baseBdev = r'.baseBdev
  imagePath : r.imagePath = r'.imagePath
  directio : r.directio = r'.directio
  device : r.device = r'.device

theorem Configured.sameConfig {opts : UbiBdevOpts} {path : String} {r r' : UbiBdevRecord}
    (first : Configured bases opts r)
    (second : Configured bases { opts with imagePath := path } r')
    (samePath : storedPath path = storedPath opts.imagePath) : r'.SameConfig r where
  name := second.name.trans first.name.symm
  baseBdev := second.baseBdev.trans first.baseBdev.symm
  imagePath := second.imagePath.trans (samePath.trans first.imagePath.symm)
  directio := second.directio.trans first.directio.symm
  device := by
    obtain ⟨dev, device, layout⟩ := first.device
    obtain ⟨dev', device', layout'⟩ := second.device
    rw [device, device', Except.ok.inj (layout'.symm.trans layout)]

section Plain

/-! The library of `plainWorld` is as assumed. -/

theorem textOfBytes_utf8 (text : String) : textOfBytes (utf8 text) = some text := by
  rw [textOfBytes, Array.toArray_toList, String.fromUTF8?, dif_pos text.isValidUTF8]
  rfl

theorem utf8_of_textOfBytes {bytes : List UInt8} {text : String}
    (h : textOfBytes bytes = some text) : utf8 text = bytes := by
  unfold textOfBytes String.fromUTF8? at h
  split at h
  · cases h
    simp [utf8, String.fromUTF8]
  · cases h

theorem JsonMembers.get_of_mem {members : JsonMembers} {m : String × JsonValue}
    (once : (members.map Prod.fst).Nodup) (there : m ∈ members) :
    JsonMembers.get members m.1 = some m.2 := by
  induction members with
  | nil => cases there
  | cons first members ih =>
      obtain ⟨fresh, once⟩ := List.nodup_cons.mp once
      rcases List.mem_cons.mp there with rfl | there
      · simp [JsonMembers.get]
      · have other : first.1 ≠ m.1 := fun same => fresh (same ▸ List.mem_map_of_mem there)
        rw [← ih once there]
        simp [JsonMembers.get, other]

theorem plainJson_stores {keys : List JsonKey} {strdup : String → Bool} {members : JsonMembers}
    (accepted : (plainJson.decodeObject keys strdup members).ok = true)
    {m : String × JsonValue} (there : m ∈ members) :
    (plainJson.decodeObject keys strdup members).Stores m.1 m.2 := by
  obtain ⟨name, v⟩ := m
  simp only [plainJson, Bool.and_eq_true, decide_eq_true_eq, List.all_eq_true] at accepted
  have found := JsonMembers.get_of_mem accepted.1.2.1 there
  obtain ⟨readable, memory⟩ := accepted.2 _ there
  cases v with
  | string bytes =>
      obtain ⟨text, own⟩ := Option.isSome_iff_exists.mp
        (by simpa [JsonValue.readable, JsonValue.kind] using readable)
      have memory : strdup name = true := by simpa [JsonValue.kind] using memory
      obtain ⟨read, _⟩ := Option.filter_eq_some_iff.mp own
      refine ⟨text, utf8_of_textOfBytes read, ?_⟩
      simp [plainJson, memory, found, own]
  | uint32 n | bool b =>
      show Option.bind (JsonMembers.get members name) _ = _
      rw [found]
      rfl

theorem plainJson_lawful : plainJson.Lawful where
  decoded_text keys strdup members name text decoded := by
    simp only [plainJson] at decoded
    split at decoded
    · obtain ⟨v, _, own⟩ := Option.bind_eq_some_iff.mp decoded
      cases v with
      | string bytes => simpa using (Option.filter_eq_some_iff.mp own).2
      | uint32 _ | bool _ => cases own
    · cases decoded
  decoded_required keys strdup members accepted key known required kind := by
    have taken : Takes keys members := by
      simp only [plainJson, Bool.and_eq_true, decide_eq_true_eq] at accepted
      exact accepted.1
    obtain ⟨distinct, _, fits, needed⟩ := taken
    obtain ⟨m, there, same⟩ := List.mem_map.mp (needed key known required)
    obtain ⟨_, key', known', name, kind'⟩ := fits m there
    obtain rfl : key' = key := List.inj_on_of_nodup_map distinct known' known (name.trans same)
    have stores := plainJson_stores accepted there
    rw [same] at stores
    cases value : m.2 with
    | string bytes =>
        rw [value] at stores
        obtain ⟨text, _, stored⟩ := stores
        exact ⟨text, stored⟩
    | uint32 _ | bool _ =>
        rw [kind, value] at kind'
        cases kind'
  decode_write keys members params written taken := by
    simp only [plainJson] at written
    split at written
    · next readable =>
      cases written
      have accepted : (plainJson.decodeObject keys (fun _ => true) members).ok = true := by
        simpa [plainJson, taken] using readable
      exact ⟨accepted, fun m there => plainJson_stores accepted there⟩
    · cases written
  write_text members valid text := by
    refine ⟨members, if_pos (List.all_eq_true.mpr fun m there => ?_)⟩
    obtain ⟨name, v⟩ := m
    cases v with
    | string bytes =>
        obtain ⟨t, rfl⟩ := text name bytes there
        have clean : 0 ∉ utf8 t := valid _ there
        have kept : !hasNul t := by simpa [hasNul] using clean
        simp [JsonValue.readable, JsonValue.text?, textOfBytes_utf8, kept]
    | uint32 _ | bool _ => rfl

end Plain

section Saved

variable {req : RpcConstructUbi} {r : UbiBdevRecord} {dev : UbiBdev}
  (formed : req.Formed) (configured : Configured world.bases (req.opts world) r)

include formed configured

theorem Configured.own_name :
    r.name = some (textOf req.name) ∧ hasNul (textOf req.name) = false := by
  obtain ⟨name, named, text⟩ := formed.name
  refine ⟨?_, by rw [named]; exact text⟩
  rw [configured.name, RpcConstructUbi.opts, named]
  rfl

theorem Configured.own_path :
    r.imagePath = storedPath (textOf req.imagePath) ∧ 0 ∉ r.imagePath := by
  obtain ⟨path, given, text⟩ := formed.imagePath
  have stored : r.imagePath = storedPath (textOf req.imagePath) := configured.imagePath
  refine ⟨stored, ?_⟩
  rw [stored, given]
  intro zero
  have inside : 0 ∈ utf8 path.text := List.mem_of_mem_take zero
  simp [hasNul, inside] at text

theorem ubiWriteConfigJson_eq (device : r.device = some dev) : ubiWriteConfigJson world r =
    (world.json.writeObject (configMembers world.registry r (textOf req.name)
      (req.opts world).baseBdev dev)).map (⟨"bdev_ubi_create", ·⟩) := by
  simp only [ubiWriteConfigJson, (configured.own_name formed).1, configured.baseBdev, device,
    Option.bind_eq_bind, Option.bind_some, Option.map_eq_bind]
  rfl

/-- A path that was not cut off is text again. -/
theorem config_written (lawful : world.json.Lawful) (dev : UbiBdev)
    (short : (utf8 (textOf req.imagePath)).length < ubiPathLen) :
    ∃ params, world.json.writeObject (configMembers world.registry r (textOf req.name)
      (req.opts world).baseBdev dev) = some params := by
  obtain ⟨stored, clean⟩ := configured.own_path formed
  have whole : utf8 (textOf req.imagePath) = r.imagePath := by
    rw [stored]
    exact (List.take_of_length_le (by omega)).symm
  have taken : Takes (rpcConstructUbiDecoders.map JsonDecoder.key) (configMembers world.registry r
      (textOf req.name) (req.opts world).baseBdev dev) :=
    configMembers_taken (configured.own_name formed).2 clean
  refine lawful.write_text _ (fun m there => (taken.2.2.1 m there).1) fun key bytes there => ?_
  simp only [configMembers, List.mem_cons, Prod.mk.injEq, JsonValue.string.injEq, reduceCtorEq,
    and_false, List.not_mem_nil, or_false] at there
  rcases there with ⟨_, rfl⟩ | ⟨_, rfl⟩ | ⟨_, rfl⟩
  · exact ⟨_, rfl⟩
  · exact ⟨_, rfl⟩
  · exact ⟨_, whole⟩

/-- The base bdev is found by its own name, whichever name the request gave it. -/
theorem savedRequest_opts (lawful : world.json.Lawful) {params : J} (x : RpcId)
    (layout : initDevice (req.opts world) (world.bases (req.opts world).baseBdev) = .ok dev)
    (written : world.json.writeObject (configMembers world.registry r (textOf req.name)
      (req.opts world).baseBdev dev) = some params) :
    (savedRequest world ⟨"bdev_ubi_create", params⟩ x).ok = true ∧
      ∃ path, utf8 path = r.imagePath ∧
        storedPath path = storedPath (req.opts world).imagePath ∧
        (savedRequest world ⟨"bdev_ubi_create", params⟩ x).out.opts world =
          { req.opts world with imagePath := path } := by
  obtain ⟨stored, clean⟩ := configured.own_path formed
  obtain ⟨ownName, nameText⟩ := configured.own_name formed
  obtain ⟨size, sync, copy⟩ := initDevice_fields layout
  obtain ⟨valid, path, same, out⟩ := config_decodes lawful x nameText clean written
  have again : storedPath path = storedPath (req.opts world).imagePath := by
    rw [storedPath, same, ← configured.imagePath, stored, storedPath, List.take_take, Nat.min_self]
  have named := configured.name.symm.trans ownName
  refine ⟨valid, path, same, again, ?_⟩
  rw [savedRequest, out]
  simp only [RpcConstructUbi.opts] at size sync copy again named configured ⊢
  simp only [textOf, Option.elim_some, Option.map_some, world.registry.find_name, size, sync, copy,
    configured.directio] at again named ⊢
  rw [again, named]

end Saved

/-- The saved configuration of a registered ubi bdev is a valid request to create one. It decodes
to the options from which the ubi bdev came, but for what was cut off the path, and whatever
`bdev_ubi_create` makes of it is configured like the ubi bdev. It can be written unless the path
was cut off. -/
theorem saved_config_recreates (lawful : world.json.Lawful)
    {allowed : RpcState J → RpcEvent J → Prop} (run : RpcReach world allowed s)
    (registered : s.host.registered id = true) :
    ∃ r req, s.host.record id = some r ∧ s.request id = some req ∧
      ((utf8 (textOf req.imagePath)).length < ubiPathLen →
        ∃ config, ubiWriteConfigJson world r = some config) ∧
      ∀ config, ubiWriteConfigJson world r = some config → config.method = "bdev_ubi_create" ∧
        ∀ x, (savedRequest world config x).ok = true ∧
          (∃ path, utf8 path = r.imagePath ∧ (savedRequest world config x).out.opts world =
            { req.opts world with imagePath := path }) ∧
          ∀ h j env r', (bdevUbiCreate world.bases h j
            (some ((savedRequest world config x).out.opts world)) env).record j = some r' →
              r'.SameConfig r := by
  obtain ⟨l, sim⟩ := (answered_reach run).simulated
  obtain ⟨r, known⟩ := registered_record sim registered
  obtain ⟨req, request, formed, configured⟩ := requested_reach lawful run id r known
  obtain ⟨dev, device, layout⟩ := configured.device
  have entry := ubiWriteConfigJson_eq formed configured device
  refine ⟨r, req, known, request, fun short => ?_, fun config written => ?_⟩
  · obtain ⟨params, wrote⟩ := config_written formed configured lawful dev short
    exact ⟨_, by rw [entry, wrote]; rfl⟩
  · rw [entry] at written
    obtain ⟨params, wrote, rfl⟩ := Option.map_eq_some_iff.mp written
    refine ⟨rfl, fun x => ?_⟩
    obtain ⟨valid, path, same, again, opts⟩ :=
      savedRequest_opts formed configured lawful x layout wrote
    refine ⟨valid, ⟨path, same, opts⟩, fun h j env r' made => ?_⟩
    rw [opts] at made
    exact configured.sameConfig (bdevUbiCreate_record made) again

theorem saved_config_recreates_createThenDelete :
    ∃ s r config, RpcReach plainWorld (fun _ _ => True) s ∧ s.host.record 0 = some r ∧
      ubiWriteConfigJson plainWorld r = some config ∧
      (savedRequest plainWorld config (.create 1)).ok = true ∧
      ((savedRequest plainWorld config (.create 1)).out.opts plainWorld).stripeSizeKb = 64 := by
  have ran : (Runs.exec (rpcStep plainWorld) (fun _ _ => true) emptyRpc
      (createThenDelete.take 2)).any (fun s => decide (s.host.registered 0 = true ∧
        (s.request 0).map (fun req => (textOf req.imagePath, req.stripeSizeKb)) =
          some ("image", 64))) = true := by decide +kernel
  obtain ⟨s, run, test⟩ := Runs.exists_reach_of_exec (fun _ _ _ _ => trivial) ran
  obtain ⟨registered, asked⟩ := of_decide_eq_true test
  obtain ⟨r, req, known, request, writes, recreates⟩ :=
    saved_config_recreates plainJson_lawful run registered
  simp only [request, Option.map_some, Option.some.injEq, Prod.mk.injEq] at asked
  obtain ⟨config, written⟩ := writes (by rw [asked.1]; decide +kernel)
  obtain ⟨valid, ⟨path, _, same⟩, _⟩ := (recreates config written).2 (.create 1)
  refine ⟨s, r, config, run, known, written, valid, ?_⟩
  rw [same]
  exact asked.2

end BdevUbi
