import AthenaAI.Python.Value

/-!
# The HTTP tool

`athenai.tools.http`. `execute` checks the host of the URL it is given against an allowlist and then
has an HTTP client fetch it. The client follows redirects, and nothing checks where they lead.

* `Httpx` is what the tool uses of the client: how a request is built from the arguments, which host
  a request goes to, and the redirect limit. `follow` is its redirect loop.
* `Servers` are the remote servers: what they answer may depend on everything requested so far.
* `execute` returns the requests that were sent along with its outcome.
* `RedirectChain` are the chains of requests the servers ask for, whether or not they are sent;
  `mem_get_iff` says that the loop sends exactly those within the limit.
* `staysInside_iff`: the tool keeps to the allowlist, and denies what would leave it,
  exactly if it denies the URL it is given or the servers' redirects never leave the allowlist.
-/

/-- A response with a body. -/
structure HttpResponse where
  /-- The status code. -/
  statusCode : ℤ
  /-- The URL of the request that was answered. -/
  url : PyStr
  /-- The body. -/
  text : PyStr
  /-- The headers. -/
  headers : PyDict

/-- What a server answers to a request. -/
inductive Answer (Request : Type) where
  | body (response : HttpResponse)
  | redirect (location : Request)
  -- no response: a timeout, a broken connection, an invalid redirect
  | failure (e : PyExc)

/-- The remote servers: what they answer to the last of the requests sent so far. -/
abbrev Servers (Request : Type) := List Request → Answer Request

/-- What the tool uses of the HTTP client. -/
structure Httpx (Request : Type) where
  /-- The request for a URL with the given headers, if the client accepts them. -/
  request : (url headers : PyValue) → Except PyExc Request
  /-- The host that a request is sent to. -/
  host : Request → PyStr
  /-- How many redirects the client follows. -/
  maxRedirects : ℕ := 20

namespace Httpx

variable {Request : Type} (httpx : Httpx Request) (servers : Servers Request)

/-- The error of a client that has been redirected too often. -/
def tooManyRedirects : PyExc :=
  .of (.other "TooManyRedirects".toList) "Exceeded maximum allowed redirects.".toList

/-- The client sends `request` after the requests `sent`, and follows the redirects as long as it
has requests left to send. -/
def follow : (left : ℕ) → (sent : List Request) → (request : Request) →
    List Request × Except PyExc HttpResponse
  -- the request that would be one too many is not sent
  | 0, sent, _ => (sent, .error tooManyRedirects)
  | left + 1, sent, request =>
    match servers (sent ++ [request]) with
    | .body response => (sent ++ [request], .ok response)
    -- wherever it leads: the allowlist is not consulted again
    | .redirect location => follow left (sent ++ [request]) location
    | .failure e => (sent ++ [request], .error e)

/-- `client.get(url, headers=headers, follow_redirects=True)`: the requests that are sent and the
outcome. -/
def get (url headers : PyValue) : List Request × Except PyExc HttpResponse :=
  match httpx.request url headers with
  | .ok first => follow servers (httpx.maxRedirects + 1) [] first
  | .error e => ([], .error e)

end Httpx

/-- The tool, with its allowlist. -/
structure HTTPTool where
  /-- The allowed domains. -/
  allowedDomains : List PyStr

namespace HTTPTool

/-- `_MAX_BODY_CHARS`. -/
def maxBodyChars : ℕ := 8192

/-- The host is an allowed domain or a subdomain of one. -/
def Covers (tool : HTTPTool) (host : PyStr) : Prop :=
  ∃ d ∈ tool.allowedDomains, host = d ∨ host.endswith ('.' :: d)

instance (tool : HTTPTool) : DecidablePred tool.Covers := by
  unfold Covers
  infer_instance

/-- `HTTPTool._check_domain`. `hostname` is `urlparse(url).hostname`, which may be missing and may
raise. -/
def checkDomain (tool : HTTPTool) (hostname : PyValue → Except PyExc (Option PyStr))
    (url : PyValue) : Except PyExc Unit := do
  -- `urlparse(url).hostname or ""`
  let host := (← hostname url).getD []
  if tool.Covers host then
    return ()
  else
    throw (.of .ToolDeniedError
      ("domain ".toList ++ host.repr ++ " is not in the allowed domains list".toList))

/-- `HTTPTool.execute`: the requests that are sent and the outcome. -/
def execute {Request : Type} (tool : HTTPTool)
    (hostname : PyValue → Except PyExc (Option PyStr)) (httpx : Httpx Request)
    (servers : Servers Request) (arguments : PyDict) : List Request × Except PyExc PyDict :=
  match arguments.get "url".toList with
  | none => ([], .error (.keyError "url".toList))
  | some url =>
    match tool.checkDomain hostname url with
    | .error e => ([], .error e)
    | .ok () =>
      let headers := (arguments.get "headers".toList).getD (.dict [])
      let (sent, outcome) := httpx.get servers url headers
      (sent, outcome.map fun response =>
        [("status".toList, .int response.statusCode),
          ("url".toList, .str response.url),
          ("body".toList, .str (response.text.slice 0 maxBodyChars)),
          ("headers".toList, .dict response.headers)])

end HTTPTool

/-! ## The chains of requests -/

/-- A chain of requests in which each one after the first is what the servers redirected the ones
before it to. -/
def RedirectChain {Request : Type} (servers : Servers Request) (chain : List Request) : Prop :=
  ∀ sent request, sent ≠ [] → sent ++ [request] <+: chain → servers sent = .redirect request

/-- A `RedirectChain` goes on with the request that the servers redirect it to, and with no other
one. -/
theorem redirectChain_concat {Request : Type} {servers : Servers Request} {chain : List Request}
    {request : Request} : RedirectChain servers (chain ++ [request]) ↔
      RedirectChain servers chain ∧ (chain ≠ [] → servers chain = .redirect request) := by
  constructor
  · intro h
    -- both are chains that the longer one extends
    refine ⟨fun sent r hsent hext => ?_, fun hne => h chain request hne (List.prefix_refl _)⟩
    exact h sent r hsent (hext.trans (List.prefix_append _ _))
  · rintro ⟨hchain, hlast⟩ sent r hsent hext
    rcases List.prefix_concat_iff.mp hext with heq | hext
    · obtain ⟨rfl, hr⟩ := List.append_inj' heq rfl
      obtain rfl := List.singleton_inj.mp hr
      exact hlast hsent
    · exact hchain sent r hsent hext

namespace Httpx

variable {Request : Type} {servers : Servers Request} {left : ℕ} {sent chain : List Request}
  {request : Request}

/-- `follow` only adds to what was sent before. -/
theorem sent_isPrefix_follow : sent <+: (follow servers left sent request).1 := by
  induction left generalizing sent request with
  | zero => exact List.prefix_refl _
  | succ left ih =>
    have hsent : sent <+: sent ++ [request] := List.prefix_append _ _
    rw [follow]
    split
    · exact hsent
    · exact hsent.trans ih
    · exact hsent

/-- What `follow` sends is a `RedirectChain`, no longer than its limit allows: the loop invariant of
the client. -/
theorem redirectChain_follow (hsent : RedirectChain servers sent)
    (hrequest : sent ≠ [] → servers sent = .redirect request) :
    RedirectChain servers (follow servers left sent request).1 ∧
      (follow servers left sent request).1.length ≤ sent.length + left := by
  -- by induction on the requests left; a redirect spends one and extends the chain by one
  induction left generalizing sent request with
  | zero => exact ⟨hsent, le_rfl⟩
  | succ left ih =>
    have hchain : RedirectChain servers (sent ++ [request]) :=
      redirectChain_concat.mpr ⟨hsent, hrequest⟩
    have hlength : (sent ++ [request]).length = sent.length + 1 := List.length_append
    rw [follow]
    split
    · exact ⟨hchain, by simp⟩
    · next location hredirect =>
      obtain ⟨hrest, hle⟩ := ih hchain fun _ => hredirect
      exact ⟨hrest, by omega⟩
    · exact ⟨hchain, by simp⟩

/-- `follow` sends every `RedirectChain` within its limit, so what it sends is the longest one. -/
theorem isPrefix_follow (hchain : RedirectChain servers chain)
    (hext : sent ++ [request] <+: chain) (hlength : chain.length ≤ sent.length + left) :
    chain <+: (follow servers left sent request).1 := by
  induction left generalizing sent request with
  | zero =>
    have := hext.length_le
    simp at this
    omega
  | succ left ih =>
    obtain ⟨rest, rfl⟩ := hext
    cases rest with
    -- the chain ends with the request, which is sent in any case
    | nil =>
      rw [List.append_nil, follow]
      split
      · exact List.prefix_refl _
      · exact sent_isPrefix_follow
      · exact List.prefix_refl _
    | cons location rest =>
      -- the chain goes on, so the servers have answered with a redirect
      have hext : sent ++ [request] ++ [location] <+: sent ++ [request] ++ location :: rest :=
        (List.prefix_append_right_inj _).mpr ⟨rest, rfl⟩
      have hredirect := hchain _ location (by simp) hext
      rw [follow, hredirect]
      refine ih hext ?_
      simp only [List.length_append, List.length_singleton] at hlength ⊢
      omega

/-- A request is sent exactly if it is part of a chain that the servers ask for, from the first
request on and within the limit on redirects. -/
theorem mem_get_iff (httpx : Httpx Request) (servers : Servers Request) (url headers : PyValue) :
    request ∈ (httpx.get servers url headers).1 ↔
      ∃ chain first, httpx.request url headers = .ok first ∧ RedirectChain servers chain ∧
        [first] <+: chain ∧ chain.length ≤ httpx.maxRedirects + 1 ∧ request ∈ chain := by
  rw [get]
  cases hfirst : httpx.request url headers with
  | error e => simp
  | ok first =>
    have hnil : RedirectChain servers [] := fun sent r _ hext => by simpa using hext.length_le
    have hone : RedirectChain servers [first] :=
      redirectChain_concat.mpr ⟨hnil, fun hne => absurd rfl hne⟩
    constructor
    -- what is sent is itself such a chain
    · intro hmem
      obtain ⟨hchain, hlength⟩ : RedirectChain servers _ ∧ _ :=
        redirectChain_follow hnil fun hne => absurd rfl hne
      exact ⟨_, first, rfl, hchain, isPrefix_follow hone (List.prefix_refl _) (by simp),
        by simpa using hlength, hmem⟩
    · rintro ⟨chain, _, heq, hchain, hext, hlength, hmem⟩
      obtain rfl := Except.ok.inj heq
      have hsent : chain <+: (follow servers (httpx.maxRedirects + 1) [] first).1 :=
        isPrefix_follow hchain hext (by simpa using hlength)
      exact hsent.subset hmem

end Httpx

/-! ## Keeping to the allowlist -/

namespace HTTPTool

variable {Request : Type} (tool : HTTPTool) (hostname : PyValue → Except PyExc (Option PyStr))
  (httpx : Httpx Request) (servers : Servers Request) (arguments : PyDict)

/-- The domain check denies the URL in the arguments. -/
def Denies : Prop :=
  ∃ url e, arguments.get "url".toList = some url ∧ tool.checkDomain hostname url = .error e ∧
    e.type = .ToolDeniedError

/-- From the URL in the arguments the servers ask for a chain of requests, within the limit on
redirects, that leads to a host outside the allowlist. -/
def LedOutside : Prop :=
  ∃ url first chain, arguments.get "url".toList = some url ∧
    httpx.request url ((arguments.get "headers".toList).getD (.dict [])) = .ok first ∧
    RedirectChain servers chain ∧ [first] <+: chain ∧ chain.length ≤ httpx.maxRedirects + 1 ∧
    ∃ request ∈ chain, ¬tool.Covers (httpx.host request)

/-- The tool keeps to the allowlist: every host it sends a request to is covered, and if the servers
would lead it to one that is not, it raises a `ToolDeniedError`. -/
def StaysInside : Prop :=
  (∀ request ∈ (tool.execute hostname httpx servers arguments).1,
      tool.Covers (httpx.host request)) ∧
    (tool.LedOutside httpx servers arguments →
      ∃ e, (tool.execute hostname httpx servers arguments).2 = .error e ∧
        e.type = .ToolDeniedError)

variable {tool hostname httpx servers arguments} {url : PyValue}

/-- Without a `url` argument the tool raises a `KeyError` and sends nothing. -/
theorem execute_of_no_url (hurl : arguments.get "url".toList = none) :
    tool.execute hostname httpx servers arguments = ([], .error (.keyError "url".toList)) := by
  rw [execute, hurl]

/-- If `checkDomain` raises, the tool sends nothing and its exception is the outcome. -/
theorem execute_of_check_error {e : PyExc} (hurl : arguments.get "url".toList = some url)
    (hcheck : tool.checkDomain hostname url = .error e) :
    tool.execute hostname httpx servers arguments = ([], .error e) := by
  rw [execute, hurl]
  dsimp only
  rw [hcheck]

/-- If `checkDomain` passes, what is sent is up to the client and the servers: the tool checks no
further URL. -/
theorem sent_of_check_ok (hurl : arguments.get "url".toList = some url)
    (hcheck : tool.checkDomain hostname url = .ok ()) :
    (tool.execute hostname httpx servers arguments).1 =
      (httpx.get servers url ((arguments.get "headers".toList).getD (.dict []))).1 := by
  rw [execute, hurl]
  dsimp only
  rw [hcheck]

/-- If the check passes, the servers have `LedOutside` the tool exactly if it sends a request to a
host that it does not cover. -/
theorem ledOutside_iff_of_check_ok (hurl : arguments.get "url".toList = some url)
    (hcheck : tool.checkDomain hostname url = .ok ()) :
    tool.LedOutside httpx servers arguments ↔
      ∃ request ∈ (tool.execute hostname httpx servers arguments).1,
        ¬tool.Covers (httpx.host request) := by
  rw [sent_of_check_ok hurl hcheck]
  constructor
  · rintro ⟨url', first, chain, hurl', hfirst, hchain, hext, hlength, request, hmem, hout⟩
    obtain rfl := Option.some.inj (hurl.symm.trans hurl')
    exact ⟨request, (httpx.mem_get_iff servers url _).mpr
      ⟨chain, first, hfirst, hchain, hext, hlength, hmem⟩, hout⟩
  · rintro ⟨request, hmem, hout⟩
    obtain ⟨chain, first, hfirst, hchain, hext, hlength, hmem⟩ :=
      (httpx.mem_get_iff servers url _).mp hmem
    exact ⟨url, first, chain, hurl, hfirst, hchain, hext, hlength, request, hmem, hout⟩

/-- Without a `url` argument nothing is sent, so there is nowhere to be led. -/
theorem not_ledOutside_of_no_url (hurl : arguments.get "url".toList = none) :
    ¬tool.LedOutside httpx servers arguments := by
  rintro ⟨url, _, _, hsome, -⟩
  rw [hurl] at hsome
  cases hsome

/-- `Denies` says that `checkDomain` raises a `ToolDeniedError` on the URL of the call. -/
theorem denies_iff (hurl : arguments.get "url".toList = some url) :
    tool.Denies hostname arguments ↔
      ∃ e, tool.checkDomain hostname url = .error e ∧ e.type = .ToolDeniedError := by
  refine ⟨?_, fun ⟨e, hcheck, htype⟩ => ⟨url, e, hurl, hcheck, htype⟩⟩
  rintro ⟨url', e, hurl', hcheck, htype⟩
  obtain rfl := Option.some.inj (hurl.symm.trans hurl')
  exact ⟨e, hcheck, htype⟩

variable (tool hostname httpx servers arguments)

/-- The tool keeps to the allowlist in all that it sends (`StaysInside`) exactly if its check denies
the URL it is given, or the servers never lead it outside. `LedOutside` says that some redirect,
within the limit of the client, goes to a host that is within no allowed domain: only the first URL
is checked, and redirects are followed. -/
theorem staysInside_iff :
    tool.StaysInside hostname httpx servers arguments ↔
      tool.Denies hostname arguments ∨ ¬tool.LedOutside httpx servers arguments := by
  cases hurl : arguments.get "url".toList with
  -- without a URL nothing is sent
  | none =>
    have hinside : ¬tool.LedOutside httpx servers arguments := not_ledOutside_of_no_url hurl
    refine iff_of_true ⟨fun r hr => ?_, fun h => absurd h hinside⟩ (Or.inr hinside)
    rw [execute_of_no_url hurl] at hr
    exact absurd hr List.not_mem_nil
  | some url =>
    rw [denies_iff hurl]
    cases hcheck : tool.checkDomain hostname url with
    -- nothing is sent, so it matters only which exception the check raises
    | error e =>
      simp only [StaysInside, execute_of_check_error hurl hcheck, Except.error.injEq,
        exists_eq_left', List.not_mem_nil, false_imp_iff, implies_true, true_and]
      rw [or_comm, imp_iff_not_or]
    -- the client has the URL, and the servers decide
    | ok u =>
      have hled : tool.LedOutside httpx servers arguments ↔
          ∃ request ∈ (tool.execute hostname httpx servers arguments).1,
            ¬tool.Covers (httpx.host request) := ledOutside_iff_of_check_ok hurl hcheck
      rw [or_iff_right (by simp)]
      constructor
      · rintro ⟨hinside, -⟩ hout
        obtain ⟨request, hmem, hout⟩ := hled.mp hout
        exact hout (hinside request hmem)
      · intro hinside
        refine ⟨fun request hmem => ?_, fun hout => absurd hout hinside⟩
        by_contra hout
        exact hinside (hled.mpr ⟨request, hmem, hout⟩)

/-! ### A redirect to another host -/

/-- The host of a URL of the form `scheme://host/path`, in lower case and without a port. -/
def hostOf (url : PyStr) : PyStr :=
  ((url.dropWhile (· ≠ '/')).drop 2).takeWhile (· ≠ '/')

/-- `urlparse(url).hostname` on such URLs. -/
def exampleHostname : PyValue → Except PyExc (Option PyStr)
  | .str url => .ok (some (hostOf url))
  | _ => .ok none

/-- A client on such URLs. -/
def exampleClient : Httpx PyStr where
  request
    | .str url, _ => .ok url
    | _, _ => .error (.of .TypeError "Invalid type for url.".toList)
  host := hostOf

/-- Servers that redirect the first request to a metadata endpoint. -/
def redirectingServers : Servers PyStr
  | [_] => .redirect "http://169.254.169.254/latest".toList
  | sent => .body ⟨200, (sent.getLast?).getD [], "secret".toList, []⟩

/-- A tool that allows `api.example.com` follows a redirect from there to `169.254.169.254`, which
is within no allowed domain. -/
theorem redirect_leaves_allowlist :
    let tool : HTTPTool := ⟨["api.example.com".toList]⟩
    let arguments : PyDict := [("url".toList, .str "https://api.example.com/v1".toList)]
    (tool.execute exampleHostname exampleClient redirectingServers arguments).1 =
        ["https://api.example.com/v1".toList, "http://169.254.169.254/latest".toList] ∧
      ¬tool.StaysInside exampleHostname exampleClient redirectingServers arguments := by
  intro tool arguments
  have hsent : (tool.execute exampleHostname exampleClient redirectingServers arguments).1 =
      ["https://api.example.com/v1".toList, "http://169.254.169.254/latest".toList] := by
    decide +kernel
  refine ⟨hsent, fun hinside => ?_⟩
  have hcovers := hinside.1 "http://169.254.169.254/latest".toList (by rw [hsent]; simp)
  exact absurd hcovers (by decide +kernel)

end HTTPTool
