import VectorGuard.Core.Advice
import VectorGuard.Core.Incident
import VectorGuard.Core.Qdrant

/-!
# Embedders

Where the vectors of the slow path come from (`slow_path/embedder`). An event is
written out as a text, and the configured backend makes a vector of it: the local one
computes it, the others ask a service and take the numbers out of its answer.

The services are a parameter: each request gets a reply or none. The four of them are
asked in the same way and differ in the request, in where the numbers are, in whether an
error has a place of its own in the answer, and in the texts of what goes wrong. An entry
that is no number is passed over, so that a vector may be too short; `Embedder.embed`
compares its length with the dimension of the backend.

The JSON text of an error that a service reports is a parameter.

## Main definitions

* `eventToText`: The text of an event.
* `deterministicEmbed`: The vector of the local backend.
* `Service.embed`: The vector in the answer of a service.
* `EmbedProvider`: The backends, as they are built from the configuration.
* `EmbedProvider.embed`, `EmbedProvider.dim`: Their vectors and their dimensions.
-/

namespace VectorGuard

/-! ### The text of an event -/

/-- The `Debug` text of a direction. -/
def Direction.debug : Direction → String
  | .inbound => "Inbound"
  | .outbound => "Outbound"

/-- The `Debug` text of a severity. -/
def Severity.debug : Severity → String
  | .info => "Info"
  | .low => "Low"
  | .medium => "Medium"
  | .high => "High"
  | .critical => "Critical"

/-- Bytes in decimal. -/
def displayBytes (octets : List UInt8) : String := ".".intercalate (octets.map toString)

/-- `Ipv6Addr::segments`. -/
def segments : List UInt8 → List Nat
  | a :: b :: rest => (a.toNat * 256 + b.toNat) :: segments rest
  | _ => []

/-- Groups in hexadecimal. -/
def displayGroups (groups : List Nat) : String :=
  ":".intercalate (groups.map (fun n => String.ofList (Nat.toDigits 16 n)))

/-- The first of the longest runs of zeros: where it starts and how long it is. -/
def longestZeros (groups : List Nat) : Nat × Nat :=
  (groups.zipIdx.foldl (fun (current, longest) (n, i) =>
    if n = 0 then
      let current := if current.2 = 0 then (i, 1) else (current.1, current.2 + 1)
      (current, if longest.2 < current.2 then current else longest)
    else ((0, 0), longest)) ((0, 0), (0, 0))).2

/-- The `Display` text of an address. -/
def IpAddr.display : IpAddr → String
  | .v4 a b c d => displayBytes [a, b, c, d]
  | .v6 octets =>
    let octets := octets.toList
    if octets.take 12 = List.replicate 10 0 ++ [0xff, 0xff] then
      "::ffff:" ++ displayBytes (octets.drop 12)
    else
      let groups := segments octets
      let (start, count) := longestZeros groups
      -- A single zero is not shortened.
      if 1 < count then
        displayGroups (groups.take start) ++ "::" ++ displayGroups (groups.drop (start + count))
      else displayGroups groups

/-- The first words of the text. -/
def EventType.kind : EventType → String
  | .exec => "exec"
  | .fileAccess path flags =>
    "file_access " ++ path ++ " mode=" ++ (if flags.read then "r" else "")
      ++ (if flags.write then "w" else "") ++ (if flags.execute then "x" else "")
  | .network direction remoteIp port proto =>
    "net_" ++ direction.debug ++ " " ++ proto.debug ++ " " ++ remoteIp.display ++ ":"
      ++ toString port
  | .privilege syscall capability => "privilege " ++ syscall ++ " cap=" ++ capability.getD "none"
  | .signal signum targetPid => "signal " ++ toString signum ++ " target_pid=" ++ toString targetPid

/-- `event_to_text`. -/
def eventToText (event : NormalizedEvent) : String :=
  let argsStr :=
    if event.process.args.isEmpty then ""
    else " args=[" ++ ", ".intercalate event.process.args ++ "]"
  let parentStr := match event.parent with
    | some p => " parent=" ++ p.binary ++ "(pid=" ++ toString p.pid ++ ")"
    | none => ""
  let cwdStr := if event.process.cwd.isEmpty then "" else " cwd=" ++ event.process.cwd
  event.eventType.kind ++ " uid=" ++ toString event.process.uid ++ " proc=" ++ event.process.binary
    ++ argsStr ++ cwdStr ++ parentStr ++ " severity=" ++ event.severity.debug

/-! ### The local backend -/

/-- The dimension of the local backend. -/
def localDim : Nat := 64

/-- One byte of a text, at its position. -/
def mixByte (v : List Float32) (byte : UInt8) (i : Nat) : List Float32 :=
  let slot := i % localDim
  let slot2 := (byte.toNat * 7 + i * 13) % localDim
  (v.modify slot (fun x => x + byte.toFloat32 / 255.0)).modify slot2 (fun x => x + 0.3)

/-- `deterministic_embed`. -/
def deterministicEmbed (text : String) : List Float32 :=
  normalized ((bytes text).zipIdx.foldl (fun v b => mixByte v b.1 b.2)
    (List.replicate localDim 0))

/-! ### Services -/

/-- A request with a JSON body, and a key if the service wants it in a header. -/
structure HttpPost where
  url : String
  bearer : Option String
  body : Value

/-- `Value::get`. -/
def Value.get? : Value → String → Option Value
  | object fields, key => fields.lookup key
  | _, _ => none

/-- How a service is asked, and what is made of its answer. -/
structure Service where
  post : HttpPost
  failed : String
  unparsed : String
  /-- Where the service reports an error, and what the text of that error starts with. -/
  refusal : Option (String × String)
  embedding : Value → Value
  missing : String
  empty : String

section

variable (parseF64 : String → Float) (display : Value → String)

/-- The vector in an answer. -/
def Service.vectorOf (s : Service) (resp : Value) : Except String (List Float32) :=
  match (s.embedding resp).asArray with
  | none => .error s.missing
  | some items =>
    let vec := items.filterMap (fun v => (v.asF64 parseF64).map Float.toFloat32)
    if vec.isEmpty then .error s.empty else .ok vec

/-- The `embed` of the backends that ask a service. -/
def Service.embed (call : HttpPost → Reply) (s : Service) : Except String (List Float32) :=
  match call s.post with
  | .transportError _ => .error s.failed
  | .response _ (.error _) => .error s.unparsed
  | .response _ (.ok resp) =>
    match s.refusal with
    | none => s.vectorOf parseF64 resp
    | some (key, text) =>
      match resp.get? key with
      | some err => .error (text ++ display err)
      | none => s.vectorOf parseF64 resp

/-- `OllamaEmbedder::embed`. -/
def ollama (endpoint model text : String) : Service where
  post :=
    { url := endpoint ++ "/api/embed"
      bearer := none
      body := .object [("model", .string model), ("input", .string text)] }
  failed := "Ollama API request failed"
  unparsed := "Ollama response parse failed"
  refusal := none
  embedding resp := (resp.field "embeddings").index 0
  missing := "Missing embeddings array in Ollama response"
  empty := "Ollama returned empty embedding"

/-- `OpenAiEmbedder::embed`. -/
def openai (model key text : String) : Service where
  post :=
    { url := "https://api.openai.com/v1/embeddings"
      bearer := some key
      body := .object [("input", .string text), ("model", .string model)] }
  failed := "OpenAI API request failed"
  unparsed := "OpenAI response parse failed"
  refusal := some ("error", "OpenAI API error: ")
  embedding resp := ((resp.field "data").index 0).field "embedding"
  missing := "Missing embedding array in OpenAI response"
  empty := "OpenAI returned empty embedding"

/-- `VoyageEmbedder::embed`. -/
def voyage (model key text : String) : Service where
  post :=
    { url := "https://api.voyageai.com/v1/embeddings"
      bearer := some key
      body := .object [("input", .array [.string text]), ("model", .string model)] }
  failed := "Voyage API request failed"
  unparsed := "Voyage response parse failed"
  refusal := some ("detail", "Voyage API error: ")
  embedding resp := ((resp.field "data").index 0).field "embedding"
  missing := "Missing embedding array in Voyage response"
  empty := "Voyage returned empty embedding"

/-- `GeminiEmbedder::embed`. -/
def gemini (model key text : String) : Service where
  post :=
    { url := "https://generativelanguage.googleapis.com/v1beta/models/" ++ model
        ++ ":embedContent?key=" ++ key
      bearer := none
      body := .object [("content", .object [("parts", .array [.object [("text", .string text)]])])] }
  failed := "Gemini API request failed"
  unparsed := "Gemini response parse failed"
  refusal := some ("error", "Gemini API error: ")
  embedding resp := (resp.field "embedding").field "values"
  missing := "Missing embedding.values in Gemini response"
  empty := "Gemini returned empty embedding"

end

/-! ### Backends -/

inductive EmbedderBackend
  | local'
  | openai
  | voyage
  | gemini
  deriving DecidableEq, Repr

structure EmbedderConfig where
  backend : EmbedderBackend
  model : String
  apiKeyEnv : String
  endpoint : Option String
  deriving DecidableEq, Repr

/-- `resolve_api_key`. -/
def EmbedderConfig.resolveApiKey (cfg : EmbedderConfig) (env : String → Option String) :
    Option String :=
  if cfg.apiKeyEnv.isEmpty then none
  else (env cfg.apiKeyEnv).filter (fun key => !key.isEmpty)

/-- The implementations of `EmbedProvider`. -/
inductive EmbedProvider
  | local'
  | ollama (endpoint model : String)
  | openai (model : String) (apiKey : Option String)
  | voyage (model : String) (apiKey : Option String)
  | gemini (model : String) (apiKey : Option String)

namespace EmbedProvider

/-- The provider `Embedder::new` chooses. -/
def ofConfig (cfg : EmbedderConfig) (env : String → Option String) : EmbedProvider :=
  let apiKey := cfg.resolveApiKey env
  match cfg.backend with
  | .local' =>
    match cfg.endpoint with
    | some endpoint => ollama endpoint cfg.model
    | none => local'
  | .openai => openai cfg.model apiKey
  | .voyage => voyage cfg.model apiKey
  | .gemini => gemini cfg.model apiKey

/-- `EmbedProvider::dim`. -/
def dim : EmbedProvider → Nat
  | local' => localDim
  | ollama _ _ => 768
  | openai model _ => if model = "text-embedding-3-large" then 3072 else 1536
  | voyage model _ => if model = "voyage-3-lite" then 512 else 1024
  | gemini _ _ => 768

/-- `EmbedProvider::embed`. -/
def embed (parseF64 : String → Float) (display : Value → String) (call : HttpPost → Reply)
    (p : EmbedProvider) (text : String) : Except String (List Float32) :=
  match p with
  | local' => .ok (deterministicEmbed text)
  | ollama endpoint model => (VectorGuard.ollama endpoint model text).embed parseF64 display call
  | openai _ none => .error "OpenAI API key not set"
  | openai model (some key) => (VectorGuard.openai model key text).embed parseF64 display call
  | voyage _ none => .error "Voyage API key not set"
  | voyage model (some key) => (VectorGuard.voyage model key text).embed parseF64 display call
  | gemini _ none => .error "Gemini API key not set"
  | gemini model (some key) => (VectorGuard.gemini model key text).embed parseF64 display call

/-- The embedder of a provider whose service answers like this. -/
def embedder (parseF64 : String → Float) (display : Value → String) (call : HttpPost → Reply)
    (p : EmbedProvider) : Embedder where
  provider event := p.embed parseF64 display call (eventToText event)
  dim := p.dim

end EmbedProvider

end VectorGuard
