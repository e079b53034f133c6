import AthenaAI.Models.Cloud

/-!
# The local model

`athenai.models.local`. The adapter of a completion API: the conversation is sent as one text, in
lines of the form `Role: content`.

* `LocalModel.payload` is the body that `LocalModel.generate` posts, with the text
  `LocalModel.prompt` in it; `reply` is what it makes of the outcome.
* `turns` are what the lines of the text stand for: the roles with a capital letter, and the
  contents, with the system prompt as a first turn if there is one.
* `prompt_eq_prompt_iff`: as long as no content has a line break and no role has one or a colon
  (`OneLine`), the text says what the turns are.
* `LocalModel.healthCheck` is the probe of the server, which turns every failure into `false`.
-/

/-- What the adapter reads of the body of a response. -/
structure GenerateReply where
  /-- `data.get("response")`. -/
  response : Option PyStr
  /-- The truth of `data.get("done")`. -/
  done : Bool

/-- A response of the API. -/
structure GenerateResponse where
  /-- The status code. -/
  statusCode : ℕ
  /-- The body. -/
  text : PyStr
  /-- What the body says, or what reading it raises. -/
  data : Except PyExc GenerateReply

/-- The adapter. -/
structure LocalModel where
  /-- The name of the model. -/
  modelName : PyStr
  /-- The URL of the API. -/
  baseUrl : PyStr := "http://localhost:11434".toList
  deriving DecidableEq

namespace LocalModel

-- `str.capitalize`
variable (capitalize : PyStr → PyStr)

/-- The system prompt, if there is one, and the messages: who speaks and what is said. -/
def turns (request : ModelRequest) : List (PyStr × PyStr) :=
  -- `if request.system`
  (if request.system.isEmpty then [] else [("System".toList, request.system)]) ++
    request.messages.map fun m => (capitalize m.role, m.content)

/-- `f"{role}: {content}"`. -/
def line (turn : PyStr × PyStr) : PyStr := turn.1 ++ ": ".toList ++ turn.2

/-- The text of a conversation. -/
def prompt (request : ModelRequest) : PyStr :=
  PyStr.join ['\n'] ((turns capitalize request).map line)

variable (model : LocalModel)

/-- The body that `LocalModel.generate` posts. -/
def payload (request : ModelRequest) : PyDict :=
  [(.str "model".toList, .str (request.modelName.orElse model.modelName)),
    (.str "prompt".toList, .str (prompt capitalize request)),
    (.str "stream".toList, .bool false),
    (.str "options".toList, .dict [(.str "temperature".toList, .float request.temperature)])]

/-- What `LocalModel.generate` makes of the outcome of its request. -/
def reply (prompt : PyStr) : Except HttpxFailure GenerateResponse → Except PyExc ModelResponse
  -- a timeout is a `RequestError` too
  | .error (.timeout text) | .error (.request text) =>
    .error (CloudModel.unavailable ("Ollama unavailable: ".toList ++ text))
  | .error (.other exc) => .error exc
  | .ok resp => do
    if 400 ≤ resp.statusCode then
      throw (CloudModel.unavailable ("Ollama error (".toList ++ PyStr.ofInt resp.statusCode ++
        "): ".toList ++ resp.text.take 200))
    let data ← resp.data
    let content := data.response.getD []
    return {
      content
      modelName := model.modelName
      inputTokens := (max 1 (prompt.length / 4) : ℕ)
      outputTokens := (max 1 (content.length / 4) : ℕ)
      finishReason := if data.done then "stop".toList else "length".toList }

/-- `LocalModel.generate`, with the `post` of the HTTP client. -/
def generate (post : (url : PyStr) → (json : PyDict) → Except HttpxFailure GenerateResponse)
    (request : ModelRequest) : Except PyExc ModelResponse :=
  model.reply (prompt capitalize request)
    (post (model.baseUrl ++ "/api/generate".toList) (model.payload capitalize request))

/-- `LocalModel.health_check`, with the status code that a `get` of the HTTP client comes to. -/
def healthCheck (get : (url : PyStr) → Except HttpxFailure ℕ) : Bool :=
  match get (model.baseUrl ++ "/api/tags".toList) with
  | .ok statusCode => statusCode = 200
  -- `except Exception`
  | .error _ => false

/-! ## What the text of a conversation says -/

variable {capitalize}

/-- A turn whose line says what it is: no colon in the name of the speaker, and no line break. -/
structure OneLine (turn : PyStr × PyStr) : Prop where
  /-- The colon after the name of the speaker is the first one. -/
  colon : ':' ∉ turn.1
  /-- The name of the speaker is on one line. -/
  role : '\n' ∉ turn.1
  /-- What is said is on one line. -/
  content : '\n' ∉ turn.2

theorem not_mem_line {turn : PyStr × PyStr} (h : OneLine turn) : '\n' ∉ line turn := by
  rw [line, List.mem_append, List.mem_append, not_or, not_or]
  exact ⟨⟨h.role, by decide⟩, h.content⟩

/-- A line says whose turn it is: the capitalised role ends at the first colon, since it has none in
it (`OneLine`). -/
theorem takeWhile_line {turn : PyStr × PyStr} (h : OneLine turn) :
    (line turn).takeWhile (· ≠ ':') = turn.1 := by
  have hrole : ∀ c ∈ turn.1, decide (c ≠ ':') = true := fun c hc =>
    decide_eq_true (ne_of_mem_of_not_mem hc h.colon)
  rw [line, List.append_assoc, List.takeWhile_append_of_pos hrole]
  exact List.append_nil _

/-- A line shows the role and the content of a turn: the role ends at the first colon, since no
capitalised role has one. -/
theorem eq_of_line_eq_line {turn turn' : PyStr × PyStr} (h : OneLine turn) (h' : OneLine turn')
    (heq : line turn = line turn') : turn = turn' := by
  have hrole : turn.1 = turn'.1 := by rw [← takeWhile_line h, heq, takeWhile_line h']
  rw [line, line, hrole] at heq
  exact Prod.ext hrole (List.append_cancel_left heq)

/-- Lines are told apart by the line feeds they are joined with, if no turn has one in it
(`OneLine`). -/
theorem join_lines_eq_iff {ts us : List (PyStr × PyStr)} (hts : ∀ t ∈ ts, OneLine t)
    (hus : ∀ t ∈ us, OneLine t) :
    PyStr.join ['\n'] (ts.map line) = PyStr.join ['\n'] (us.map line) ↔ ts = us := by
  -- a text has the lines it was made of; only the empty text is made of none
  have hsplit {l : List (PyStr × PyStr)} (hl : ∀ t ∈ l, OneLine t) (hne : l ≠ []) :
      (PyStr.join ['\n'] (l.map line)).splitOn '\n' = l.map line :=
    List.splitOn_intercalate '\n' (List.forall_mem_map.mpr fun t ht => not_mem_line (hl t ht))
      (mt List.map_eq_nil_iff.mp hne)
  have hlines {l : List (PyStr × PyStr)} (hne : l ≠ []) :
      PyStr.join ['\n'] (l.map line) ≠ [] := by
    obtain ⟨t, l, rfl⟩ := List.exists_cons_of_ne_nil hne
    obtain ⟨rest, hrest⟩ := PyStr.join_cons ['\n'] (line t) (l.map line)
    rw [List.map_cons, hrest, line]
    simp
  constructor
  · intro heq
    by_cases ht : ts = []
    · by_contra hne
      exact hlines (fun hu => hne (ht.trans hu.symm)) (by rw [← heq, ht]; rfl)
    · have hu : us ≠ [] := by
        rintro rfl
        exact hlines ht heq
      have hmap : ts.map line = us.map line := by rw [← hsplit hts ht, heq, hsplit hus hu]
      have hall : ∀ t ∈ ts ++ us, OneLine t := List.forall_mem_append.mpr ⟨hts, hus⟩
      exact List.eq_of_map_eq_map
        (fun t ht u hu => eq_of_line_eq_line (hall t ht) (hall u hu))
        (List.subset_append_left ts us) (List.subset_append_right ts us) hmap
  · rintro rfl
    rfl

/-- If nothing that is said has a line break (`OneLine`), the text of a conversation is that of no
other `turns`: the capitalised roles and the contents, the system prompt first, can be told from it.
Only a message in the role `system` is taken for the system prompt. -/
theorem prompt_eq_prompt_iff {request request' : ModelRequest}
    (h : ∀ turn ∈ turns capitalize request, OneLine turn)
    (h' : ∀ turn ∈ turns capitalize request', OneLine turn) :
    prompt capitalize request = prompt capitalize request' ↔
      turns capitalize request = turns capitalize request' :=
  join_lines_eq_iff h h'

/-- `str.capitalize`, on letters of ASCII. -/
def capitalizeAscii : PyStr → PyStr
  | [] => []
  | c :: s => c.toUpper :: s.map Char.toLower

/-- A request with a greeting. -/
def greeting (role : PyStr) : ModelRequest where
  messages := [⟨role, "hi".toList, none⟩]
  modelName := []

/-- The conversation `greeting` is of one line for every role whose capitalised form has no colon
and no line feed. -/
theorem oneLine_greeting {role : PyStr} (hcolon : ':' ∉ capitalizeAscii role)
    (hline : '\n' ∉ capitalizeAscii role) :
    ∀ turn ∈ turns capitalizeAscii (greeting role), OneLine turn :=
  List.forall_mem_singleton.mpr ⟨hcolon, hline, show '\n' ∉ "hi".toList by decide⟩

/-- `prompt_eq_prompt_iff` for two conversations that differ in one role: so do their prompts. -/
theorem prompt_eq_prompt_iff_greeting :
    prompt capitalizeAscii (greeting "user".toList) =
        prompt capitalizeAscii (greeting "tool".toList) ↔
      turns capitalizeAscii (greeting "user".toList) =
        turns capitalizeAscii (greeting "tool".toList) :=
  prompt_eq_prompt_iff (oneLine_greeting (by decide) (by decide))
    (oneLine_greeting (by decide) (by decide))

end LocalModel
