import TrustRouter.Kv

/-!
# Backends and compute nodes

What the state store hands to a request: the registry of backends with the strategies they
declare for each model, and the snapshot of the compute nodes with their capacity.  Both
grow only by `register`, which checks what it is given, so both carry what every entry has
passed (`BackendRegistry.registered`, `CapacitySnapshot.registered`).
-/

namespace TrustRouter

/-! ## Backends -/

structure BackendRequest where
  requestId : String
  model : ModelReference
  strategy : KvStrategy
  deriving DecidableEq

inductive BackendFailure where
  | timeout
  | overloaded
  | outOfMemory
  | unavailableModel
  | kvTransferFailed
  | capacityExhausted
  | qualityViolation
  deriving DecidableEq

structure BackendResult where
  backend : String
  success : Bool
  latencyMs : Option UInt64
  estimatedCost : Option F64
  failure : Option BackendFailure
  deriving DecidableEq

/-- An inference backend, by its methods. -/
structure InferenceBackend where
  name : String
  supports : ModelReference → KvStrategy → Bool
  execute : BackendRequest → BackendResult

/-- The backend of the tests. -/
structure MockBackend where
  name : String
  model : ModelReference
  supported : List KvStrategy
  result : BackendResult

namespace MockBackend

def supports (mock : MockBackend) (model : ModelReference) (strategy : KvStrategy) : Bool :=
  mock.model = model && strategy ∈ mock.supported

def backend (mock : MockBackend) : InferenceBackend where
  name := mock.name
  supports := mock.supports
  execute request :=
    if !mock.supports request.model request.strategy then
      { backend := mock.name
        success := false
        latencyMs := none
        estimatedCost := none
        failure := some .unavailableModel }
    else mock.result

end MockBackend

inductive BackendRegistryError where
  | invalidDescriptor
  | duplicateBackend (id : String)
  | unknownBackend (id : String)
  | unsupportedCapability (backend : String) (model : ModelReference) (strategy : KvStrategy)
  deriving DecidableEq

/-- The `identifier` of the backend registry. -/
def BackendRegistry.identifier : String → Bool := isIdentifier

structure BackendDescriptor where
  id : String
  version : String
  capabilities : HashMap ModelReference (Finset KvStrategy)

namespace BackendDescriptor

def supports (descriptor : BackendDescriptor) (model : ModelReference) (strategy : KvStrategy) :
    Bool :=
  (descriptor.capabilities.lookup model).any (strategy ∈ ·)

def validate (descriptor : BackendDescriptor) : Except BackendRegistryError Unit :=
  if !BackendRegistry.identifier descriptor.id || !BackendRegistry.identifier descriptor.version ||
      descriptor.capabilities.entries.isEmpty then
    .error .invalidDescriptor
  else if descriptor.capabilities.entries.any fun entry =>
      !BackendRegistry.identifier entry.1.modelId ||
        !BackendRegistry.identifier entry.1.modelVersion || entry.2 = ∅ then
    .error .invalidDescriptor
  else .ok ()

theorem isIdentifier_id {descriptor : BackendDescriptor} (valid : descriptor.validate = .ok ()) :
    isIdentifier descriptor.id = true := by
  unfold validate BackendRegistry.identifier at valid
  split_ifs at valid with named
  simp only [Bool.or_eq_true, Bool.not_eq_true', not_or] at named
  simpa using named.1.1

end BackendDescriptor

structure RegisteredBackend where
  descriptor : BackendDescriptor
  backend : InferenceBackend

structure BackendRegistry where
  entries : BTreeMap String RegisteredBackend
  revision : ℕ
  /-- Every entry is a valid descriptor under its own identifier. -/
  registered : ∀ id entry, entries.get id = some entry →
    entry.descriptor.id = id ∧ entry.descriptor.validate = .ok ()

namespace BackendRegistry

instance : Inhabited BackendRegistry :=
  ⟨{ entries := ∅, revision := 0, registered := fun _ _ found => by cases found }⟩

def register (registry : BackendRegistry) (descriptor : BackendDescriptor)
    (backend : InferenceBackend) : Except BackendRegistryError BackendRegistry :=
  match valid : descriptor.validate with
  | .error error => .error error
  | .ok _ =>
      if descriptor.id ≠ backend.name then .error .invalidDescriptor
      else if registry.entries.containsKey descriptor.id then
        .error (.duplicateBackend descriptor.id)
      else
        .ok
          { entries := registry.entries.insert descriptor.id ⟨descriptor, backend⟩
            revision := registry.revision + 1
            registered := by
              intro id entry found
              rw [BTreeMap.get_insert] at found
              split_ifs at found with same
              · obtain rfl := Option.some.inj found
                exact ⟨same.symm, valid⟩
              · exact registry.registered id entry found }

def supports (registry : BackendRegistry) (backendId : String) (model : ModelReference)
    (strategy : KvStrategy) : Except BackendRegistryError Bool :=
  match registry.entries.get backendId with
  | none => .error (.unknownBackend backendId)
  | some entry => .ok (entry.descriptor.supports model strategy)

def execute (registry : BackendRegistry) (backendId : String) (request : BackendRequest) :
    Except BackendRegistryError BackendResult :=
  match registry.entries.get backendId with
  | none => .error (.unknownBackend backendId)
  | some entry =>
      if !entry.descriptor.supports request.model request.strategy then
        .error (.unsupportedCapability backendId request.model request.strategy)
      else .ok (entry.backend.execute request)

def backendIds (registry : BackendRegistry) : List String := registry.entries.keys

theorem isIdentifier_of_mem {registry : BackendRegistry} {id : String}
    (mem : id ∈ registry.backendIds) : isIdentifier id = true := by
  obtain ⟨entry, found⟩ := BTreeMap.mem_keys.mp mem
  obtain ⟨rfl, valid⟩ := registry.registered id entry found
  exact entry.descriptor.isIdentifier_id valid

end BackendRegistry

/-! ## Compute nodes -/

structure ComputeNode where
  id : String
  region : String
  accelerator : String
  totalMemoryMb : UInt64
  availableMemoryMb : UInt64
  utilization : F64
  activeRequests : UInt32
  queueDepth : UInt32
  healthy : Bool
  residentModels : Finset ModelReference
  deriving DecidableEq

inductive CapacityError where
  | invalidNode (id : String)
  | duplicateNode (id : String)
  deriving DecidableEq

/-- The `id` of the capacity module. -/
def Capacity.id : String → Bool := isIdentifier

def ComputeNode.validate (node : ComputeNode) : Except CapacityError Unit :=
  if !Capacity.id node.id || !Capacity.id node.region || !Capacity.id node.accelerator ||
      node.totalMemoryMb = 0 || node.totalMemoryMb < node.availableMemoryMb ||
      !node.utilization.isRatio then
    .error (.invalidNode node.id)
  else .ok ()

theorem ComputeNode.isIdentifier_id {node : ComputeNode} (valid : node.validate = .ok ()) :
    isIdentifier node.id = true := by
  unfold validate Capacity.id at valid
  split_ifs at valid with named
  simp only [Bool.or_eq_true, Bool.not_eq_true', not_or] at named
  simpa using named.1.1.1.1.1

structure CapacityRequirement where
  model : ModelReference
  region : Option String
  minAvailableMemoryMb : UInt64
  maxQueueDepth : UInt32

inductive CapacityRejection where
  | unhealthy
  | regionMismatch
  | modelNotResident
  | insufficientMemory
  | queueLimit
  deriving DecidableEq

/-- The first check of the requirement that the node fails. -/
def CapacityRequirement.rejection (requirement : CapacityRequirement) (node : ComputeNode) :
    Option CapacityRejection :=
  if !node.healthy then some .unhealthy
  else if requirement.region.any (· ≠ node.region) then some .regionMismatch
  else if requirement.model ∉ node.residentModels then some .modelNotResident
  else if node.availableMemoryMb < requirement.minAvailableMemoryMb then some .insufficientMemory
  else if requirement.maxQueueDepth < node.queueDepth then some .queueLimit
  else none

theorem CapacityRequirement.rejection_eq_none_iff {requirement : CapacityRequirement}
    {node : ComputeNode} :
    requirement.rejection node = none ↔
      node.healthy = true ∧ (∀ region ∈ requirement.region, region = node.region) ∧
        requirement.model ∈ node.residentModels ∧
        requirement.minAvailableMemoryMb ≤ node.availableMemoryMb ∧
        node.queueDepth ≤ requirement.maxQueueDepth := by
  have inRegion : requirement.region.any (· ≠ node.region) = false ↔
      ∀ region ∈ requirement.region, region = node.region := by
    cases requirement.region <;> simp
  rw [← inRegion, ← UInt64.not_lt, ← UInt32.not_lt]
  unfold rejection
  split_ifs <;> simp_all

structure CapacitySnapshot where
  nodes : BTreeMap String ComputeNode
  revision : ℕ
  /-- Every entry is a valid node under its own identifier. -/
  registered : ∀ id node, nodes.get id = some node → node.id = id ∧ node.validate = .ok ()

namespace CapacitySnapshot

instance : Inhabited CapacitySnapshot :=
  ⟨{ nodes := ∅, revision := 0, registered := fun _ _ found => by cases found }⟩

def register (capacity : CapacitySnapshot) (node : ComputeNode) :
    Except CapacityError CapacitySnapshot :=
  match valid : node.validate with
  | .error error => .error error
  | .ok _ =>
      if capacity.nodes.containsKey node.id then .error (.duplicateNode node.id)
      else
        .ok
          { nodes := capacity.nodes.insert node.id node
            revision := capacity.revision + 1
            registered := by
              intro id found get
              rw [BTreeMap.get_insert] at get
              split_ifs at get with same
              · obtain rfl := Option.some.inj get
                exact ⟨same.symm, valid⟩
              · exact capacity.registered id found get }

/-- The nodes that meet the requirement, and the others with what they fail. -/
def evaluate (capacity : CapacitySnapshot) (requirement : CapacityRequirement) :
    List ComputeNode × List (String × CapacityRejection) :=
  (capacity.nodes.values.filter fun node => requirement.rejection node = none,
    capacity.nodes.entries.filterMap fun entry =>
      (requirement.rejection entry.2).map (Prod.mk entry.1))

theorem mem_evaluate {capacity : CapacitySnapshot} {requirement : CapacityRequirement}
    {node : ComputeNode} :
    node ∈ (capacity.evaluate requirement).1 ↔
      capacity.nodes.get node.id = some node ∧ requirement.rejection node = none := by
  simp only [evaluate, List.mem_filter, decide_eq_true_eq, BTreeMap.mem_values]
  refine and_congr_left fun _ => ⟨fun ⟨id, found⟩ => ?_, fun found => ⟨node.id, found⟩⟩
  rwa [(capacity.registered id node found).1]

theorem isIdentifier_of_get {capacity : CapacitySnapshot} {node : ComputeNode}
    (found : capacity.nodes.get node.id = some node) : isIdentifier node.id = true :=
  node.isIdentifier_id (capacity.registered node.id node found).2

end CapacitySnapshot

end TrustRouter
