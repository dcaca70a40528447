/-!
# Settings of the command line

    A setting is given by its name behind two dashes.  It is a switch, or it takes a
    value: a text, a number of 16 bits or a decimal fraction.

    * `ValueType.admits` says which texts a setting takes;
    * `Setting.shared` are the settings that may stand before and behind a command. -/

namespace ModelOperator

namespace CommandLine

/-- What a setting takes. -/
inductive ValueType where
  | text
  | word16
  | fraction
  deriving DecidableEq, Repr

/-- A setting: its name, what it takes, what it means, the variable of the environment
    that also gives it, and its default. -/
structure Setting where
  name : String
  value : Option ValueType
  note : String
  variableName : Option String := none
  default : Option String := none
  deriving DecidableEq, Repr

namespace ValueType

/-- A text without its sign. -/
def unsigned : List Char → List Char
  | '+' :: rest => rest
  | '-' :: rest => rest
  | cs => cs

/-- Whether a text consists of digits, at least one. -/
def isDigits (cs : List Char) : Bool := !cs.isEmpty && cs.all Char.isDigit

/-- Whether a text is a whole number from 0 to 65535; a sign may stand before it. -/
def isWord16 (cs : List Char) : Bool :=
  let digits := unsigned cs
  let value := digits.foldl (fun n c => 10 * n + (c.toNat - 48)) 0
  isDigits digits && value ≤ 65535 && (cs.head? != some '-' || value == 0)

/-- Whether a text is empty or an exponent of ten. -/
def isExponent : List Char → Bool
  | [] => true
  | c :: rest => (c == 'e' || c == 'E') && isDigits (unsigned rest)

/-- Whether a text is a decimal fraction: digits with at most one point among or around
    them, and perhaps an exponent. -/
def isDecimal (cs : List Char) : Bool :=
  let whole := cs.takeWhile Char.isDigit
  match cs.dropWhile Char.isDigit with
  | '.' :: rest =>
    let part := rest.takeWhile Char.isDigit
    (!whole.isEmpty || !part.isEmpty) && isExponent (rest.dropWhile Char.isDigit)
  | rest => !whole.isEmpty && isExponent rest

/-- Whether a text is a fraction, infinite or no number at all. -/
def isFraction (cs : List Char) : Bool :=
  let magnitude := unsigned cs
  ["inf", "infinity", "nan"].contains (String.ofList (magnitude.map Char.toLower)) ||
    isDecimal magnitude

/-- Whether a setting of the type takes a text. -/
def admits (t : ValueType) (value : String) : Bool :=
  match t with
  | text => true
  | word16 => isWord16 value.toList
  | fraction => isFraction value.toList

end ValueType

namespace Setting

/-- Prints the definitions of the resources. -/
def definitions : Setting where
  name := "crd"
  value := none
  note := "Print the CRD manifests and exit"

/-- Settings of the controllers, which any command takes. -/
def shared : List Setting := [
  { name := "namespace", value := some .text
    note := "Only watch this namespace"
    variableName := some "OLLAMA_OPERATOR_NAMESPACE" },
  { name := "leader-elect", value := none
    note := "Acquire a Lease before starting the controllers"
    variableName := some "OLLAMA_OPERATOR_LEADER_ELECT" },
  { name := "leader-election-namespace", value := some .text
    note := "Namespace of the leader election Lease (defaults to POD_NAMESPACE)"
    variableName := some "OLLAMA_OPERATOR_LEADER_ELECTION_NAMESPACE" },
  { name := "health-port", value := some .word16
    note := "Port serving /healthz and /readyz"
    variableName := some "OLLAMA_OPERATOR_HEALTH_PORT"
    default := some "8081" },
  { name := "concurrency", value := some .word16
    note := "Reconciles run in parallel per controller"
    variableName := some "OLLAMA_OPERATOR_CONCURRENCY"
    default := some "10" },
  { name := "install-crds", value := none
    note := "Install or update the CRDs on startup"
    variableName := some "OLLAMA_OPERATOR_INSTALL_CRDS" },
  { name := "tracing-endpoint", value := some .text
    note := "OTLP gRPC endpoint (falls back to OTEL_EXPORTER_OTLP_ENDPOINT)"
    variableName := some "OLLAMA_OPERATOR_TRACING_ENDPOINT" },
  { name := "tracing-sampling-rate", value := some .fraction
    note := "Fraction of traces sampled"
    variableName := some "OLLAMA_OPERATOR_TRACING_SAMPLING_RATE"
    default := some "1" }]

end Setting

end CommandLine

end ModelOperator
