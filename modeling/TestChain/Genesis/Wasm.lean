import TestChain.Key
import TestChain.Codec.Record

/-!
# The state of the contract module

Who may upload contracts and who may start them.
-/

namespace TestChain

/-- Who may do something. -/
inductive Access where
  /-- Nobody. -/
  | nobody
  /-- The addresses of a list. -/
  | anyOfAddresses
  /-- Everybody. -/
  | everybody
  deriving DecidableEq, Repr

namespace Access

/-- The name of an access. -/
def name : Access → String
  | .nobody => "nobody"
  | .anyOfAddresses => "any_of_addresses"
  | .everybody => "everybody"

/-- The access of a name. -/
def ofName? : String → Option Access
  | "nobody" => some .nobody
  | "any_of_addresses" => some .anyOfAddresses
  | "everybody" => some .everybody
  | _ => none

/-- Accesses are written by name. -/
def codec : Codec Access := .enumeration name ofName?

end Access

/-- An access with its list of addresses. -/
structure AccessConfig where
  /-- The access. -/
  permission : Access
  /-- The addresses of the list. -/
  addresses : List AccountAddress
  deriving DecidableEq, Repr

namespace AccessConfig

/-- Access for everybody. -/
def everybody : AccessConfig := ⟨.everybody, []⟩

/-- Access for nobody. -/
def nobody : AccessConfig := ⟨.nobody, []⟩

/-- Accesses are written as records; a list without addresses is left out. -/
def codec : Codec AccessConfig :=
  .record <|
    (Fields.and (.required "permission" Access.codec)
      (.single "addresses" (.list (Address.codec .account)) (some []) (some []) List.isEmpty)).map
      (fun (p, a) => ⟨p, a⟩) (fun c => (c.permission, c.addresses))

end AccessConfig

/-- The parameters of contracts. -/
structure WasmParams where
  /-- Who may upload them. -/
  codeUploadAccess : AccessConfig
  /-- Who may start them. -/
  instantiatePermission : Access
  deriving DecidableEq, Repr

namespace WasmParams

/-- The parameters of a fresh chain. -/
def fresh : WasmParams := ⟨.nobody, .everybody⟩

/-- The parameters that let everybody do everything. -/
def permissionless : WasmParams := ⟨.everybody, .everybody⟩

/-- Parameters are written as records. -/
def codec : Codec WasmParams :=
  .record <|
    (Fields.and (.required "code_upload_access" AccessConfig.codec)
      (.required "instantiate_default_permission" Access.codec)).map
      (fun (c, i) => ⟨c, i⟩) (fun p => (p.codeUploadAccess, p.instantiatePermission))

end WasmParams

/-- The state of the contract module. -/
structure WasmState where
  /-- The parameters. -/
  params : WasmParams
  deriving DecidableEq, Repr

namespace WasmState

/-- The state of a fresh chain. -/
def fresh : WasmState := ⟨.fresh⟩

/-- States are written as records whose fields may be missing. -/
def codec : Codec WasmState :=
  .record <| (Fields.defaulted "params" WasmParams.codec fresh.params).map (⟨·⟩) params

end WasmState

end TestChain
