import AthenaAI.Gateway.AgentTools
import AthenaAI.Models.Cloud
import AthenaAI.Rag.Embedder

/-!
# How the gateway starts

`athenai.gateway.app`: what the lifespan makes of the environment variables before the first request
comes, and the handler of `/v1/documents/ingest` in `athenai.gateway.routes`, which needs the
document loader.

* `buildModel` and `maybeAddDocumentLoader` choose the model and the loader, `lifespan` puts
  everything into the `AppState`, and `documentIngest` is the handler.
* `maybeAddDocumentLoader_eq_none`: no environment gives the gateway a loader, for `CloudEmbedder`
  is constructed without the key that it requires (`CloudEmbedder.init`).
* `documentIngest_of_lifespan`: so a gateway that has started answers every ingest with a 503.
-/

/-- The backends of the gateway. -/
inductive Backend where
  | mock (model : MockModel)
  | cloud (model : CloudModel)

/-- `app.state`. -/
structure AppState where
  /-- The model of `runtime` and of `agent`. -/
  model : Backend
  /-- The `max_concurrent` of `runtime`. -/
  maxConcurrent : ℤ
  /-- The tools of `agent`. -/
  registry : ToolRegistry
  /-- The `max_iterations` of `agent`. -/
  maxIterations : ℤ
  /-- `document_loader`. -/
  documentLoader : Option DocumentLoader

/-- `CloudEmbedder(…)`, with the arguments that it is given. -/
def CloudEmbedder.init (apiKey _baseUrl : Option PyStr) : Except PyExc CloudEmbedder :=
  match apiKey with
  | some _ => .ok {}
  | none => .error (.of .TypeError
    "CloudEmbedder.__init__() missing 1 required positional argument: 'api_key'".toList)

namespace Gateway

variable {F Request : Type} (platform : Platform F Request) (env : Environ)

/-- `_build_model`. -/
def buildModel : Backend :=
  let apiKey := PyStr.strip (env.get "ANTHROPIC_API_KEY".toList)
  if apiKey.isEmpty then .mock {}
  else
    match platform.client apiKey with
    | .ok () => .cloud { modelName :=
        (env "ANTHROPIC_MODEL".toList).getD "claude-3-5-haiku-20241022".toList }
    -- a model that cannot be constructed is replaced by the mock
    | .error _ => .mock {}

/-- `_maybe_add_document_loader`. -/
def maybeAddDocumentLoader : Option DocumentLoader :=
  let dbUrl := PyStr.strip (env.get "ATHENA_DB_URL".toList)
  let embedderUrl := PyStr.strip (env.get "ATHENA_EMBEDDER_URL".toList)
  if dbUrl.isEmpty || embedderUrl.isEmpty then none
  else
    let loader : Except PyExc DocumentLoader := do
      platform.createPool dbUrl
      -- `CloudEmbedder(base_url=embedder_url)`
      let _embedder ← CloudEmbedder.init none (some embedderUrl)
      return ⟨← SlidingWindowChunker.init⟩
    match loader with
    | .ok loader => some loader
    -- `except Exception`
    | .error _ => none

/-- The error of a semaphore with less than no permits. -/
def negativeSemaphore : PyExc := .of .ValueError "Semaphore initial value must be >= 0".toList

/-- The first part of `lifespan`. -/
def lifespan : Except PyExc AppState := do
  let model := buildModel platform env
  let registry := buildToolRegistry platform env
  let maxConcurrent ← platform.int ((env "ATHENA_MAX_CONCURRENT".toList).getD "20".toList)
  if maxConcurrent < 0 then throw negativeSemaphore
  let maxIterations ← platform.int ((env "ATHENA_MAX_AGENT_ITER".toList).getD "10".toList)
  return ⟨model, maxConcurrent, registry, maxIterations, maybeAddDocumentLoader platform env⟩

/-- `HTTPException(status_code=503, …)`. -/
def notConfigured : PyExc :=
  .of (.other "HTTPException".toList)
    ("503: Document loader not configured. " ++
      "Set ATHENA_DB_URL and ATHENA_EMBEDDER_URL.").toList

/-- `DocumentIngestRequest`. -/
structure DocumentIngestRequest where
  /-- The text. -/
  content : PyStr
  /-- The document. -/
  documentId : PyStr
  /-- Where it comes from. -/
  source : PyStr := []
  /-- The metadata. -/
  metadata : PyDict := []

/-- `POST /v1/documents/ingest`: the document and the number of its chunks. -/
def documentIngest (lim : Json.Limits) (documentLoader : Option DocumentLoader)
    (uuid4 : ℕ → PyStr) (body : DocumentIngestRequest) : Rag (PyStr × ℕ) :=
  match documentLoader with
  | none => Coro.raise notConfigured
  | some loader => do
    let chunks ← loader.ingest lim body.content body.documentId
      ⟨body.source, some body.metadata, uuid4⟩
    return (body.documentId, chunks)

variable {platform env}

/-! ## The document loader -/

/-- No environment gives the gateway a loader: either a variable is missing, or `CloudEmbedder.init`
raises for the missing key, and the exception is caught. -/
theorem maybeAddDocumentLoader_eq_none : maybeAddDocumentLoader platform env = none := by
  unfold maybeAddDocumentLoader
  dsimp only
  split_ifs
  · rfl
  · cases platform.createPool (PyStr.strip (env.get "ATHENA_DB_URL".toList)) with
    | ok _ => rfl
    | error e => rfl

/-- A gateway that has started answers every ingest with a 503 and stores nothing, also if the
variables for the database and for the embedder are set: `maybeAddDocumentLoader` constructs a
`CloudEmbedder` without the key that it requires, and `lifespan` goes on without a loader. -/
theorem documentIngest_of_lifespan {state : AppState} (h : lifespan platform env = .ok state)
    (lim : Json.Limits) (uuid4 : ℕ → PyStr) (body : DocumentIngestRequest) :
    documentIngest lim state.documentLoader uuid4 body = Coro.raise notConfigured := by
  have hnone : state.documentLoader = none := by
    obtain ⟨n, -, h⟩ := Except.bind_eq_ok_iff.mp h
    split_ifs at h
    · cases h
    · obtain ⟨m, -, h⟩ := Except.bind_eq_ok_iff.mp h
      rw [← Except.ok.inj h]
      exact maybeAddDocumentLoader_eq_none
  rw [hnone]
  rfl

/-- An environment with a database and an embedder. -/
def ragConfigured : Environ := fun name =>
  if name = "ATHENA_DB_URL".toList then some "postgresql://athena@postgres/athena".toList
  else if name = "ATHENA_EMBEDDER_URL".toList then some "http://embedder".toList
  else none

/-- A text is refused by a gateway to which a database and an embedder were given: the gateway
starts, and has no loader. -/
theorem documentIngest_ragConfigured :
    ∃ state, lifespan machine ragConfigured = .ok state ∧
      documentIngest .thousand state.documentLoader (fun _ => [])
        ⟨"text".toList, "doc".toList, [], []⟩ = Coro.raise notConfigured := by
  obtain ⟨state, hstate⟩ : ∃ state, lifespan machine ragConfigured = .ok state := ⟨_, rfl⟩
  exact ⟨state, hstate, documentIngest_of_lifespan hstate .thousand _ _⟩

end Gateway
