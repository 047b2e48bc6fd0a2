import BdevUbi.CreationLedger

/-!
The RPC methods of `bdev_ubi_rpc.c`, and the configuration that `ubi_write_config_json`
writes. A request is decoded, hands its options to `bdev_ubi_create` or its name to
`bdev_ubi_delete`, and is answered when these call back. SPDK's JSON library is a parameter;
the strings its decoders allocate are held until the methods free them.
-/

namespace BdevUbi
open Function (update)

/-- The text has an embedded NUL, so that it is no C string. -/
def hasNul (text : String) : Bool := (utf8 text).contains 0

/-- The decoders of single values: `spdk_json_decode_string`, `_uint32` and `_bool`. -/
inductive JsonKind where
  | string | uint32 | bool
  deriving DecidableEq, Repr

/-- What a table of decoders says about a key, but for where its value goes. -/
structure JsonKey where
  name : String
  kind : JsonKind
  optional : Bool
  deriving DecidableEq

/-- What a call of `spdk_json_decode_object` has stored, by key, and whether it returned 0. -/
structure JsonDecoded where
  string : String → Option String
  uint32 : String → Option Nat
  bool : String → Option Bool
  ok : Bool

/-- A value that the JSON writer is given; a string by the bytes of a C string. -/
inductive JsonValue where
  | string (bytes : List UInt8)
  | uint32 (n : Nat)
  | bool (b : Bool)
  deriving DecidableEq

def JsonValue.kind : JsonValue → JsonKind
  | .string _ => .string
  | .uint32 _ => .uint32
  | .bool _ => .bool

/-- The values of the C types. -/
def JsonValue.Valid : JsonValue → Prop
  | .string bytes => 0 ∉ bytes
  | .uint32 n => n < 2 ^ 32
  | .bool _ => True

instance (v : JsonValue) : Decidable v.Valid :=
  match v with
  | .string bytes => inferInstanceAs (Decidable (0 ∉ bytes))
  | .uint32 n => inferInstanceAs (Decidable (n < 2 ^ 32))
  | .bool _ => .isTrue trivial

abbrev JsonMembers := List (String × JsonValue)

/-- The table has a decoder for each of the members, and they are all that it requires. -/
def Takes (keys : List JsonKey) (members : JsonMembers) : Prop :=
  (keys.map JsonKey.name).Nodup ∧ (members.map Prod.fst).Nodup ∧
    (∀ m ∈ members, m.2.Valid ∧ ∃ key ∈ keys, key.name = m.1 ∧ key.kind = m.2.kind) ∧
    ∀ key ∈ keys, key.optional = false → key.name ∈ members.map Prod.fst

instance (keys : List JsonKey) (members : JsonMembers) : Decidable (Takes keys members) :=
  inferInstanceAs (Decidable (_ ∧ _ ∧ _ ∧ _))

def JsonDecoded.Stores (decoded : JsonDecoded) (name : String) : JsonValue → Prop
  | .string bytes => ∃ text, utf8 text = bytes ∧ decoded.string name = some text
  | .uint32 n => decoded.uint32 name = some n
  | .bool b => decoded.bool name = some b

/-- The functions of SPDK's JSON library that the module calls. `decodeObject` is also told for
which keys memory is found; `writeObject` fails on strings that are no text. -/
structure SpdkJson (J : Type) where
  decodeObject : List JsonKey → (String → Bool) → J → JsonDecoded
  writeObject : JsonMembers → Option J

/-- What the saved configuration needs of the library. -/
structure SpdkJson.Lawful {J : Type} (json : SpdkJson J) : Prop where
  decoded_text : ∀ keys strdup params name text,
    (json.decodeObject keys strdup params).string name = some text → hasNul text = false
  decoded_required : ∀ keys strdup params, (json.decodeObject keys strdup params).ok = true →
    ∀ key ∈ keys, key.optional = false → key.kind = .string →
      ∃ text, (json.decodeObject keys strdup params).string key.name = some text
  decode_write : ∀ keys members params, json.writeObject members = some params →
    Takes keys members → (json.decodeObject keys (fun _ => true) params).ok = true ∧
      ∀ m ∈ members, (json.decodeObject keys (fun _ => true) params).Stores m.1 m.2
  write_text : ∀ members : JsonMembers, (∀ m ∈ members, m.2.Valid) →
    (∀ name bytes, (name, .string bytes) ∈ members → ∃ text, utf8 text = bytes) →
      ∃ params, json.writeObject members = some params

/-- A request to create is known by the ubi bdev it creates. -/
inductive RpcId where
  | create (id : UbiId)
  | delete (n : Nat)
  deriving DecidableEq

/-- A string that a decoder has allocated for a key of a request. -/
structure CString where
  request : RpcId
  key : String
  text : String
  deriving DecidableEq

/-- `free` takes null pointers; anything else must be allocated. -/
def free (string : Option CString) (held : List CString) : Except Halt (List CString) :=
  match string with
  | none => .ok held
  | some string => if string ∈ held then .ok (held.erase string) else .error .undefinedBehaviour

/-- The field of the decoded structure that an entry of a table points at. Without a value it
stays as it was. -/
inductive JsonTarget (ρ : Type) where
  | string (put : Option CString → ρ → ρ)
  | uint32 (put : Option Nat → ρ → ρ)
  | bool (put : Option Bool → ρ → ρ)

def JsonTarget.kind {ρ : Type} : JsonTarget ρ → JsonKind
  | .string _ => .string
  | .uint32 _ => .uint32
  | .bool _ => .bool

/-- `struct spdk_json_object_decoder`. -/
structure JsonDecoder (ρ : Type) where
  name : String
  target : JsonTarget ρ
  optional : Bool

namespace JsonDecoder
variable {ρ : Type}

def key (f : JsonDecoder ρ) : JsonKey := ⟨f.name, f.target.kind, f.optional⟩

def store (x : RpcId) (decoded : JsonDecoded) (out : ρ) (f : JsonDecoder ρ) : ρ :=
  match f.target with
  | .string put => put ((decoded.string f.name).map (⟨x, f.name, ·⟩)) out
  | .uint32 put => put (decoded.uint32 f.name) out
  | .bool put => put (decoded.bool f.name) out

/-- The string that is allocated for the entry. -/
def allocated (x : RpcId) (decoded : JsonDecoded) (f : JsonDecoder ρ) : Option CString :=
  match f.target with
  | .string _ => (decoded.string f.name).map (⟨x, f.name, ·⟩)
  | .uint32 _ | .bool _ => none

end JsonDecoder

/-- The structure after decoding, the strings allocated for it, and whether decoding succeeded. -/
structure Decoding (ρ : Type) where
  out : ρ
  strings : List CString
  ok : Bool

/-- A call of `spdk_json_decode_object` for request `x`. -/
def decodeRequest {J ρ : Type} (json : SpdkJson J) (x : RpcId) (table : List (JsonDecoder ρ))
    (strdup : String → Bool) (params : J) (out : ρ) : Decoding ρ :=
  let decoded := json.decodeObject (table.map JsonDecoder.key) strdup params
  ⟨table.foldl (JsonDecoder.store x decoded) out,
    table.filterMap (JsonDecoder.allocated x decoded), decoded.ok⟩

/-- `struct rpc_construct_ubi`; a string that is not there is a null pointer. -/
structure RpcConstructUbi where
  name : Option CString
  imagePath : Option CString
  baseBdevName : Option CString
  stripeSizeKb : Nat
  noSync : Bool
  copyOnRead : Bool
  directio : Bool
  deriving DecidableEq

/-- The optional parameters are set before decoding. -/
def RpcConstructUbi.defaults : RpcConstructUbi := ⟨none, none, none, 0, false, true, true⟩

def freeRpcConstructUbi (req : RpcConstructUbi) (held : List CString) :
    Except Halt (List CString) := do
  let held ← free req.name held
  let held ← free req.imagePath held
  free req.baseBdevName held

def rpcConstructUbiDecoders : List (JsonDecoder RpcConstructUbi) :=
  [⟨"name", .string fun p req => { req with name := p.or req.name }, false⟩,
    ⟨"image_path", .string fun p req => { req with imagePath := p.or req.imagePath }, false⟩,
    ⟨"base_bdev", .string fun p req => { req with baseBdevName := p.or req.baseBdevName }, false⟩,
    ⟨"stripe_size_kb",
      .uint32 fun n req => { req with stripeSizeKb := n.getD req.stripeSizeKb }, false⟩,
    ⟨"no_sync", .bool fun b req => { req with noSync := b.getD req.noSync }, true⟩,
    ⟨"copy_on_read", .bool fun b req => { req with copyOnRead := b.getD req.copyOnRead }, true⟩,
    ⟨"directio", .bool fun b req => { req with directio := b.getD req.directio }, true⟩]

/-- `struct rpc_delete_ubi` is its name. -/
def rpcDeleteUbiDecoders : List (JsonDecoder (Option CString)) :=
  [⟨"name", .string fun p name => p.or name, false⟩]

/-- The bdevs SPDK knows by name or alias. A bdev is found by its own name, which is a C string. -/
structure Registry where
  find : String → BaseId
  name : BaseId → String
  find_name : ∀ base, find (name base) = base
  name_text : ∀ base, hasNul (name base) = false

structure RpcWorld (J : Type) where
  json : SpdkJson J
  bases : BaseId → BaseBdev
  registry : Registry
  files : List UInt8 → Option ImageFile

/-- The text behind a pointer; the tables require the strings that are read. -/
def textOf (string : Option CString) : String := string.elim "" CString.text

/-- The options a decoded request hands to `bdev_ubi_create`. -/
def RpcConstructUbi.opts {J : Type} (world : RpcWorld J) (req : RpcConstructUbi) : UbiBdevOpts where
  name := req.name.map CString.text
  imagePath := textOf req.imagePath
  image := world.files (storedPath (textOf req.imagePath))
  baseBdev := world.registry.find (textOf req.baseBdevName)
  stripeSizeKb := req.stripeSizeKb
  noSync := req.noSync
  copyOnRead := req.copyOnRead
  directio := req.directio

inductive RpcMessage where
  | text (message : String)
  /-- `spdk_strerror` -/
  | strerror (errnum : Int)
  /-- `"error code: %d."` -/
  | errorCode (status : Int)
  deriving DecidableEq

inductive RpcResponse where
  | error (code : Int) (message : RpcMessage)
  | name (name : Option String)
  | bool (value : Bool)
  deriving DecidableEq

abbrev SPDK_JSONRPC_ERROR_INVALID_PARAMS : Int := -32602
abbrev SPDK_JSONRPC_ERROR_INTERNAL_ERROR : Int := -32603

def decodeFailed : RpcResponse :=
  .error SPDK_JSONRPC_ERROR_INTERNAL_ERROR (.text "spdk_json_decode_object failed")

def bdevUbiCreateDone (name : Option String) (status : Int) : RpcResponse :=
  if status < 0 then .error status (.strerror (-status))
  else if 0 < status then .error SPDK_JSONRPC_ERROR_INVALID_PARAMS (.errorCode status)
  else .name name

def rpcBdevUbiDeleteCb (bdeverrno : Int) : RpcResponse :=
  if bdeverrno = 0 then .bool true else .error bdeverrno (.strerror (-bdeverrno))

/-- `waiting` are the delete requests that SPDK answers when their ubi bdev is destroyed, and
`strings` the strings that decoders have allocated and no one has freed, newest first.
`received`, `request` and `deletes` are history variables. -/
structure RpcState (J : Type) where
  host : Host
  received : List RpcId
  request : UbiId → Option RpcConstructUbi
  deletes : List (Nat × J × (String → Bool))
  waiting : List (UbiId × Nat)
  strings : List CString
  responses : List (RpcId × RpcResponse)

variable {J : Type}

namespace RpcState

def respond (s : RpcState J) (x : RpcId) (response : RpcResponse) : RpcState J :=
  { s with responses := (x, response) :: s.responses }

/-- The module has run: each new call of `done_fn` answers its request. -/
def ran (s : RpcState J) (h : Host) : RpcState J :=
  { s with
    host := h
    responses := (h.answers.take (h.answers.length - s.host.answers.length)).map
        (fun a => (.create a.1, bdevUbiCreateDone (h.nameOf a.1) a.2)) ++ s.responses }

end RpcState

structure RpcEnv where
  strdup : String → Bool
  /-- whether memory for the context is found; the pointer is not checked -/
  context : Bool
  create : CreateEnv

def rpcBdevUbiCreate (world : RpcWorld J) (s : RpcState J) (id : UbiId) (params : J)
    (env : RpcEnv) : Except Halt (RpcState J) :=
  let d := decodeRequest world.json (.create id) rpcConstructUbiDecoders env.strdup params .defaults
  let decoded := { s with strings := d.strings ++ s.strings }
  if !d.ok then
    let answered := decoded.respond (.create id) decodeFailed
    (freeRpcConstructUbi d.out answered.strings).map fun held => { answered with strings := held }
  else if !env.context then .error .undefinedBehaviour
  else
    let asked := { decoded with request := update decoded.request id (some d.out) }
    let created := asked.ran (bdevUbiCreate world.bases asked.host id (some (d.out.opts world))
      env.create)
    (freeRpcConstructUbi d.out created.strings).map fun held => { created with strings := held }

/-- The ubi bdev that `spdk_bdev_unregister_by_name` finds. -/
def deleteTarget (h : Host) (name : String) : Option UbiId :=
  h.head.find? fun id => !h.unregistering id && h.nameOf id == some name

/-- The name is not freed when the parameters are refused. -/
def rpcBdevUbiDelete (world : RpcWorld J) (s : RpcState J) (n : Nat) (params : J)
    (strdup : String → Bool) : Except Halt (RpcState J) :=
  let d := decodeRequest world.json (.delete n) rpcDeleteUbiDecoders strdup params none
  let decoded := { s with strings := d.strings ++ s.strings }
  if !d.ok then .ok (decoded.respond (.delete n) decodeFailed)
  else
    let (rc, host) := bdevUbiDelete decoded.host (textOf d.out)
    let deleted := if rc ≠ 0 then (decoded.ran host).respond (.delete n) (rpcBdevUbiDeleteCb rc)
      else match deleteTarget decoded.host (textOf d.out) with
        | none => decoded.ran host
        | some id => { decoded.ran host with waiting := (id, n) :: decoded.waiting }
    (free d.out deleted.strings).map fun held => { deleted with strings := held }

/-- SPDK calls back when `ubi_destruct` has returned. -/
def destroyed (s : RpcState J) (id : UbiId) : RpcState J :=
  { s with
    waiting := s.waiting.filter (·.1 ≠ id)
    responses := (s.waiting.filter (·.1 = id)).map (fun w => (.delete w.2, rpcBdevUbiDeleteCb 0)) ++
      s.responses }

inductive RpcEvent (J : Type) where
  | create (id : UbiId) (params : J) (env : RpcEnv)
  | delete (n : Nat) (params : J) (strdup : String → Bool)
  | metadataRead (id : UbiId) (success : Bool) (found : Bytes) (registerRet : Int)
  | destruct (id : UbiId) (thread : ThreadId)
  | closeBase (id : UbiId) (base : BaseId)
  | removeBase (base : BaseId)
  | baseEvent (id : UbiId) (type : BdevEventType) (base : BaseId)

def rpcStep (world : RpcWorld J) (s : RpcState J) : RpcEvent J → Except Halt (RpcState J)
  | .create id params env =>
    if .create id ∈ s.received then .error .disabled
    else rpcBdevUbiCreate world { s with received := .create id :: s.received } id params env
  | .delete n params strdup =>
    if .delete n ∈ s.received then .error .disabled
    else rpcBdevUbiDelete world { s with
      received := .delete n :: s.received
      deletes := (n, params, strdup) :: s.deletes } n params strdup
  | .metadataRead id success found registerRet =>
    (hostStep world.bases s.host (.metadataRead id success found registerRet)).map s.ran
  | .destruct id thread =>
    (hostStep world.bases s.host (.destruct id thread)).map fun h => destroyed (s.ran h) id
  | .closeBase id base => (hostStep world.bases s.host (.closeBase id base)).map s.ran
  | .removeBase base => (hostStep world.bases s.host (.removeBase base)).map s.ran
  | .baseEvent id type base => (hostStep world.bases s.host (.baseEvent id type base)).map s.ran

def emptyRpc : RpcState J where
  host := emptyHost
  received := []
  request _ := none
  deletes := []
  waiting := []
  strings := []
  responses := []

abbrev RpcReach (world : RpcWorld J) (allowed : RpcState J → RpcEvent J → Prop) (s : RpcState J) :
    Prop :=
  Runs.Reach (rpcStep world) allowed emptyRpc s

/-- An entry of the configuration: a method and its parameters. -/
structure ConfigEntry (J : Type) where
  method : String
  params : J

/-- The fields of a ubi bdev that are written out, by the keys they get. -/
def configMembers (registry : Registry) (r : UbiBdevRecord) (name : String) (base : BaseId)
    (dev : UbiBdev) : JsonMembers :=
  [("name", .string (utf8 name)),
    ("base_bdev", .string (utf8 (registry.name base))),
    ("image_path", .string r.imagePath),
    ("stripe_size_kb", .uint32 dev.stripeSizeKb),
    ("copy_on_read", .bool dev.copyOnRead),
    ("directio", .bool r.directio),
    ("no_sync", .bool dev.noSync)]

/-- A registered ubi bdev has a name, a base bdev and a layout. -/
def ubiWriteConfigJson (world : RpcWorld J) (r : UbiBdevRecord) : Option (ConfigEntry J) := do
  let params ← world.json.writeObject
    (configMembers world.registry r (← r.name) (← r.baseBdev) (← r.device))
  return ⟨"bdev_ubi_create", params⟩

end BdevUbi
