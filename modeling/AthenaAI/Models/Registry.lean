import AthenaAI.Models.Base
import AthenaAI.Models.Local
import AthenaAI.Python.DictLoop

/-!
# The model registry

`athenai.models.registry`. Models under role names, built from a configuration.

* `ModelRegistry.init` is the constructor; `register`, `get`, `listRoles` and `healthCheck` are the
  methods.
* `healthCheckAll` iterates over the models and awaits a check of each of them. `HealthEnv` is what
  happens meanwhile: what the services answer, and what others register while a check is suspended.
* `healthCheckAll_spec`: the checks report on every role exactly if no role is added while one of
  them is suspended, and otherwise they end in an exception.
* `get_registerAll`: a registry is a map from roles to models, of which the last registration
  counts.
-/

/-- `MockModel | CloudModel | LocalModel`. -/
inductive RegistryModel where
  | mockModel (model : MockModel)
  | cloudModel (model : CloudModel)
  | localModel (model : LocalModel)

/-- What happens during the checks of a registry. -/
structure HealthEnv where
  /-- The attribute `_healthy` of a mock model, when check `i` reads it. -/
  healthy : (i : ℕ) → Bool
  /-- The status code that the request of check `i` comes to. -/
  get : (i : ℕ) → (url : PyStr) → Except HttpxFailure ℕ
  /-- What others register while the request of check `i` is under way, in order. -/
  registered : (i : ℕ) → List (PyStr × RegistryModel)

/-- `CloudModel.health_check`, with the status code that a `get` of the HTTP client comes to. -/
def CloudModel.healthCheck (get : (url : PyStr) → Except HttpxFailure ℕ) : Bool :=
  match get "https://api.anthropic.com/v1/models".toList with
  -- credentials that are not accepted are no reason not to be healthy
  | .ok statusCode => statusCode < 500
  | .error _ => false

/-- `model.health_check()` as check `i`, and what others register meanwhile. -/
def RegistryModel.check (env : HealthEnv) (i : ℕ) :
    RegistryModel → Bool × List (PyStr × RegistryModel)
  -- nothing is awaited, so nobody else has a turn
  | .mockModel _ => (env.healthy i, [])
  | .cloudModel _ => (CloudModel.healthCheck (env.get i), env.registered i)
  | .localModel model => (model.healthCheck (env.get i), env.registered i)

/-- `_build_model`. -/
def buildModel (config : Dict PyStr PyStr) : Except PyExc RegistryModel :=
  let modelType := (config.get "type".toList).getD "mock".toList
  let name := (config.get "name".toList).getD "unknown".toList
  if modelType = "mock".toList then .ok (.mockModel { name })
  else if modelType = "cloud".toList then
    let baseUrl := (config.get "base_url".toList).getD
      "https://api.anthropic.com/v1/messages".toList
    .ok (.cloudModel { modelName := name, baseUrl })
  else if modelType = "local".toList then
    let baseUrl := (config.get "base_url".toList).getD "http://localhost:11434".toList
    .ok (.localModel { modelName := name, baseUrl })
  else
    .error (.of .ValueError ("Unknown model type: ".toList ++ modelType.repr ++
      ". Supported: ['mock', 'cloud', 'local']".toList))

/-- The registry. -/
structure ModelRegistry where
  /-- The models, by role. -/
  models : Dict PyStr RegistryModel

namespace ModelRegistry

/-- `self._models[role] = _build_model(config)`. -/
def build (models : Dict PyStr RegistryModel) (item : PyStr × Dict PyStr PyStr) :
    Except PyExc (Dict PyStr RegistryModel) := do
  return models.set item.1 (← buildModel item.2)

/-- `ModelRegistry(registry_config)`. -/
def init (registryConfig : Dict PyStr (Dict PyStr PyStr)) : Except PyExc ModelRegistry := do
  return ⟨← registryConfig.items.foldlM build Dict.empty⟩

variable (registry : ModelRegistry)

/-- `ModelRegistry.register`. -/
def register (role : PyStr) (model : RegistryModel) : ModelRegistry :=
  ⟨registry.models.set role model⟩

/-- `ModelRegistry.list_roles`. -/
def listRoles : List PyStr := registry.models.keys

/-- `ModelRegistry.get`. -/
def get (role : PyStr) : Except PyExc RegistryModel :=
  match registry.models.get role with
  | some model => .ok model
  | none =>
    .error (.keyError ("No model registered for role ".toList ++ role.repr ++ ". Available: ".toList
      ++ (PyValue.list (registry.listRoles.map .str)).repr))

/-- `ModelRegistry.health_check`. -/
def healthCheck (env : HealthEnv) (role : PyStr) : Except PyExc Bool := do
  let model ← registry.get role
  return (model.check env 0).1

/-- `ModelRegistry.health_check_all`. -/
def healthCheckAll (env : HealthEnv) : Except PyExc (Dict PyStr Bool) :=
  registry.models.loop fun i item => item.2.check env i

/-- The registry as check `i` of `health_check_all` finds it. -/
def atCheck (env : HealthEnv) (i : ℕ) : ModelRegistry :=
  ⟨registry.models.stage (fun i item => item.2.check env i) i⟩

/-- What others register, one after the other. -/
def registerAll (registered : List (PyStr × RegistryModel)) : ModelRegistry :=
  registered.foldl (fun registry item => registry.register item.1 item.2) registry

/-! ## Checking all models -/

/-- Check `i` is made of the model that is registered under the role at place `i` at that time. -/
def Checks (env : HealthEnv) (i : ℕ) (role : PyStr) (model : RegistryModel) : Prop :=
  registry.listRoles[i]? = some role ∧ (registry.atCheck env i).get role = .ok model

/-- Whoever registers a model while a check is suspended replaces one that is there. -/
def NoNewRoles (env : HealthEnv) : Prop :=
  ∀ i role model, registry.Checks env i role model →
    ∀ item ∈ (model.check env i).2, item.1 ∈ registry.listRoles

/-- The results are those of the checks, role by role. -/
structure Reports (env : HealthEnv) (results : Dict PyStr Bool) : Prop where
  /-- Every role is reported on, in the order of registration. -/
  roles : results.keys = registry.listRoles
  /-- The report on a role is that of the model its check was made of. -/
  check : ∀ i role model, registry.Checks env i role model →
    results.get role = some (model.check env i).1

variable {registry} {env : HealthEnv}

/-- `get` returns the model of the role, and raises `KeyError` for a role that has none. -/
theorem get_eq_ok_iff {role : PyStr} {model : RegistryModel} :
    registry.get role = .ok model ↔ registry.models.get role = some model := by
  unfold get
  cases registry.models.get role <;> simp

/-- `NoNewRoles` is what `Dict.Undisturbed` asks of the loop over the `dict`: no check registers a
role that is not there. -/
theorem noNewRoles_iff :
    registry.NoNewRoles env ↔
      registry.models.Undisturbed (fun i item => item.2.check env i) := by
  rw [Dict.undisturbed_iff]
  simp only [NoNewRoles, Checks, get_eq_ok_iff, and_imp]
  rfl

/-- `health_check_all` `Reports` on all roles exactly if no role is added while a check is suspended
(`NoNewRoles`). Otherwise the exception of the iterator is all there is, and the results of the
checks that were made are lost. -/
theorem healthCheckAll_spec (registry : ModelRegistry) (env : HealthEnv) :
    (registry.NoNewRoles env →
      ∃ results, registry.healthCheckAll env = .ok results ∧ registry.Reports env results) ∧
    (¬registry.NoNewRoles env →
      registry.healthCheckAll env =
        .error (.of .RuntimeError "dictionary changed size during iteration".toList)) := by
  rw [noNewRoles_iff]
  refine ⟨fun h => ?_, Dict.loop_of_not_undisturbed⟩
  obtain ⟨results, hloop, hkeys, hresults⟩ := Dict.exists_loop_of_undisturbed h
  refine ⟨results, hloop, hkeys, fun i role model hcheck => ?_⟩
  exact hresults i role model hcheck.1 (get_eq_ok_iff.mp hcheck.2)

/-! ## The registry as a map -/

/-- The registrations of a configuration update the `dict` one after the other. -/
theorem models_registerAll (registry : ModelRegistry) (registered : List (PyStr × RegistryModel)) :
    (registry.registerAll registered).models = registry.models.update registered := by
  induction registered generalizing registry with
  | nil => rfl
  | cons item registered ih => exact ih (registry.register item.1 item.2)

/-- What the constructor has built from the first entries of a configuration: a model for each of
the roles, in their order. -/
theorem foldlM_build {items : List (PyStr × Dict PyStr PyStr)}
    {models : Dict PyStr RegistryModel} (hnodup : (items.map Prod.fst).Nodup)
    (h : items.foldlM build Dict.empty = .ok models) :
    models.keys = items.map Prod.fst ∧
      ∀ role, (models.get role).map Except.ok = ((Dict.ofItems items).get role).map buildModel := by
  induction items using List.reverseRecOn generalizing models with
  | nil =>
    obtain rfl := Except.ok.inj h
    exact ⟨rfl, fun _ => rfl⟩
  | append_singleton items item ih =>
    obtain ⟨role, config⟩ := item
    rw [List.foldlM_append] at h
    obtain ⟨before, hbefore, h⟩ := Except.bind_eq_ok_iff.mp h
    rw [List.foldlM_cons] at h
    obtain ⟨after, hafter, h⟩ := Except.bind_eq_ok_iff.mp h
    obtain rfl := Except.ok.inj h
    obtain ⟨model, hmodel, hafter⟩ := Except.bind_eq_ok_iff.mp hafter
    obtain rfl := Except.ok.inj hafter
    rw [List.map_append, List.map_singleton] at hnodup
    have hnew : role ∉ items.map Prod.fst := fun hmem =>
      List.disjoint_of_nodup_append hnodup hmem (List.mem_singleton_self role)
    obtain ⟨hkeys, hget⟩ := ih (List.nodup_append.mp hnodup).1 hbefore
    refine ⟨?_, fun r => ?_⟩
    · rw [Dict.keys_set_of_notMem (hkeys ▸ hnew), hkeys, List.map_append, List.map_singleton]
    · rw [Dict.get_set, Dict.ofItems_concat, Dict.get_set]
      split_ifs
      · exact congrArg some hmodel.symm
      · exact hget r

/-- A registry that was built from a configuration, after any registrations: under a role stands the
model that was registered last, or else the one that `buildModel` has made for it, and roles are
listed in the order in which they first came up. A role that never did is a `KeyError` that lists
the others. -/
theorem get_registerAll {registryConfig : Dict PyStr (Dict PyStr PyStr)} {registry : ModelRegistry}
    (h : init registryConfig = .ok registry) (registered : List (PyStr × RegistryModel))
    (role : PyStr) :
    (registry.registerAll registered).listRoles =
        Dict.distinct (registryConfig.keys ++ registered.map Prod.fst) ∧
      (registry.registerAll registered).get role =
        match Dict.lastOf registered role, registryConfig.get role with
        | some model, _ => .ok model
        | none, some config => buildModel config
        | none, none =>
          .error (.keyError ("No model registered for role ".toList ++ role.repr ++
            ". Available: ".toList ++ (PyValue.list ((Dict.distinct
              (registryConfig.keys ++ registered.map Prod.fst)).map .str)).repr)) := by
  obtain ⟨models, hmodels, h⟩ := Except.bind_eq_ok_iff.mp h
  obtain rfl := Except.ok.inj h
  obtain ⟨hkeys, hget⟩ := foldlM_build registryConfig.nodup hmodels
  have hroles : (registerAll ⟨models⟩ registered).listRoles =
      Dict.distinct (registryConfig.keys ++ registered.map Prod.fst) := by
    rw [listRoles, models_registerAll, Dict.keys_update, hkeys]
    rfl
  refine ⟨hroles, ?_⟩
  have hrole := hget role
  rw [Dict.get_ofItems_items] at hrole
  rw [get, hroles, models_registerAll, Dict.get_update]
  cases Dict.lastOf registered role with
  | some model => rfl
  | none =>
    rw [Option.none_or]
    cases hconfig : registryConfig.get role with
    | none =>
      rw [hconfig, Option.map_none, Option.map_eq_none_iff] at hrole
      rw [hrole]
    | some config =>
      rw [hconfig] at hrole
      obtain ⟨model, hmodel, hbuilt⟩ := Option.map_eq_some_iff.mp hrole
      rw [hmodel]
      exact hbuilt

/-- A configuration of one role. -/
def fastConfig : Dict PyStr (Dict PyStr PyStr) :=
  Dict.empty.set "fast".toList (Dict.empty.set "name".toList "tiny".toList)

/-- `get_registerAll` for a configuration with one role, whose type is missing and taken to be
`mock`, and a role that is registered later and listed later. -/
theorem get_registerAll_fastConfig :
    (registerAll ⟨Dict.empty.set "fast".toList (.mockModel ⟨"tiny".toList⟩)⟩
        [("smart".toList, .cloudModel {})]).listRoles = ["fast".toList, "smart".toList] ∧
      (registerAll ⟨Dict.empty.set "fast".toList (.mockModel ⟨"tiny".toList⟩)⟩
        [("smart".toList, .cloudModel {})]).get "fast".toList =
          .ok (.mockModel ⟨"tiny".toList⟩) :=
  @get_registerAll fastConfig _ rfl [("smart".toList, .cloudModel {})] "fast".toList

end ModelRegistry
