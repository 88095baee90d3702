/-
Loading a configuration: the secrets it refers to, and the errors it returns.

The YAML library is an argument: it reads a text as a tree, writes a tree as a text, and
decodes a text into the configuration, which may fail with any message.  What else a node
holds (tag, style, anchor) is of a type `A` and carried along.  The environment and the
files are what the load is given; an order stands for that of a range over a map, and
every range has one of its own.
-/
import GenaiBridge.Bridge.Model
import GenaiBridge.Bridge.Texts
import GenaiBridge.Lib.MapOrder

namespace GenaiBridge

/-- An error of `LoadBytes`. -/
inductive LoadError
  /-- `required env %q is unset`. -/
  | envUnset (key : String)
  /-- `parse: %w`, of the text before the secrets are put in. -/
  | parse (cause : String)
  /-- `file secret %q: %w`. -/
  | fileSecret (path cause : String)
  /-- The message of an error of the resolved tree, after `redactSecretValues`. -/
  | redacted (message : String)
deriving DecidableEq

/-! ### References to the environment -/

/-- `[A-Za-z_]`. -/
def isNameStart (c : Char) : Bool := c.isAlpha || c = '_'

/-- `[A-Za-z0-9_]`. -/
def isNameChar (c : Char) : Bool := c.isAlphanum || c = '_'

/-- `envRefRe` at the beginning of a text: the name in the braces. -/
def envRef? : List Char → Option (List Char)
  | '$' :: '{' :: l =>
    let name := l.takeWhile isNameChar
    if name.head?.any isNameStart ∧ (l.dropWhile isNameChar).head? = some '}' then some name
    else none
  | _ => none

/-- The token that stands for the `i`-th reference. -/
def placeholder (i : Nat) : String :=
  "genai-otel-bridgeXsecretX" ++ toString i ++ "Xgenai-otel-bridge"

/-- What the function passed to `ReplaceAllStringFunc` changes, and the text so far. -/
structure Injected where
  next : Nat := 0
  ph : Lib.SortedMap String String := .empty
  firstErr : Option LoadError := none
  out : List Char := []

/-- One call of that function, for the match `m` with the name `key`. -/
def Injected.replace (env : String → String) (s : Injected) (m : List Char) (key : String) :
    Injected :=
  if env key = "" then
    { s with firstErr := s.firstErr.or (some (.envUnset key)), out := s.out ++ m }
  else
    let tok := placeholder s.next
    { s with next := s.next + 1, ph := s.ph.insert tok (env key), out := s.out ++ tok.toList }

/-- `envRefRe.ReplaceAllStringFunc`, with `skip` characters left of the last match. -/
def injectFrom (env : String → String) : Nat → List Char → Injected → Injected
  | _, [], s => s
  | skip + 1, _ :: l, s => injectFrom env skip l s
  | 0, c :: l, s =>
    match envRef? (c :: l) with
    | none => injectFrom env 0 l { s with out := s.out ++ [c] }
    | some name =>
      -- the match is the name, the dollar and two braces
      let m := (c :: l).take (name.length + 3)
      injectFrom env (name.length + 2) l (s.replace env m (String.ofList name))

/-- `injectEnvPlaceholders`. -/
def injectEnvPlaceholders (env : String → String) (s : String) :
    Except LoadError (String × Lib.SortedMap String String) :=
  let r := injectFrom env 0 s.toList {}
  match r.firstErr with
  | some err => .error err
  | none => .ok (String.ofList r.out, r.ph)

/-! ### The tree -/

/-- The kinds of nodes that have nodes below them. -/
inductive NodeKind
  | document
  | sequence
  | mapping
deriving DecidableEq

/-- `yaml.Node`. -/
inductive YamlNode (A : Type)
  | inner (a : A) (kind : NodeKind) (content : List (YamlNode A))
  | scalar (a : A) (value : String)
  /-- A reference to a node that is resolved where it stands. -/
  | alias (a : A)

/-- The orders of the ranges over the placeholders in a load: one for every scalar, by the positions
of the nodes on the way to it, and one for the message of an error. -/
structure LoadOrders where
  scalar : List Nat → Lib.MapOrder
  message : Lib.MapOrder

/-- The orders below the `i`-th of the nodes below one. -/
def ordersBelow (orders : List Nat → Lib.MapOrder) (i : Nat) : List Nat → Lib.MapOrder :=
  fun path => orders (i :: path)

section

variable (files : String → Except String String) (ph : Lib.SortedMap String String)

/-- The loop over the placeholders of a scalar. -/
def substitute (o : Lib.MapOrder) (val : String) : String :=
  (o.visit ph.entries).foldl
    (fun val e => if containsText val e.1 then replaceAll val e.1 e.2 else val) val

/-- The path of a `file:` reference. -/
def filePath? (val : String) : Option String :=
  if "file:".toList <+: val.toList then some (trimSpace (String.ofList (val.toList.drop 5)))
  else none

/-- The scalar case of `resolveSecretsNode`. -/
def resolveScalar (o : Lib.MapOrder) (val : String) : Except LoadError String :=
  let val := substitute ph o val
  match filePath? val with
  | none => .ok val
  | some p =>
    match files p with
    | .error err => .error (.fileSecret p err)
    | .ok b => .ok (trimSpace b)

variable {A : Type}

mutual

/-- `resolveSecretsNode`. -/
def resolveSecretsNode (orders : List Nat → Lib.MapOrder) :
    YamlNode A → Except LoadError (YamlNode A)
  | .inner a kind content => (resolveContent orders 0 content).map (.inner a kind)
  | .scalar a val => (resolveScalar files ph (orders []) val).map (.scalar a)
  | .alias a => .ok (.alias a)

/-- The loop of `resolveSecretsNode` over the nodes below one, from the `i`-th on. -/
def resolveContent (orders : List Nat → Lib.MapOrder) (i : Nat) :
    List (YamlNode A) → Except LoadError (List (YamlNode A))
  | [] => .ok []
  | n :: ns => do
      let n ← resolveSecretsNode (ordersBelow orders i) n
      let ns ← resolveContent orders (i + 1) ns
      return n :: ns

end

/-- What a scalar reads through a `file:` reference. -/
def fileSecret? (o : Lib.MapOrder) (val : String) : Option String :=
  (filePath? (substitute ph o val)).bind fun p => (files p).toOption.map trimSpace

mutual

/-- The secrets that a tree reads from files. -/
def fileSecrets (orders : List Nat → Lib.MapOrder) : YamlNode A → List String
  | .inner _ _ content => contentSecrets orders 0 content
  | .scalar _ val => (fileSecret? files ph (orders []) val).toList
  | .alias _ => []

/-- Those of the nodes below one, from the `i`-th on. -/
def contentSecrets (orders : List Nat → Lib.MapOrder) (i : Nat) : List (YamlNode A) → List String
  | [] => []
  | n :: ns => fileSecrets (ordersBelow orders i) n ++ contentSecrets orders (i + 1) ns

end

end

/-! ### The load -/

/-- `redactSecretValues`, of the message of an error. -/
def redactSecretValues (o : Lib.MapOrder) (ph : Lib.SortedMap String String) (msg : String) :
    String :=
  (o.visit ph.entries).foldl
    (fun msg e => if 3 < e.2.utf8ByteSize then replaceAll msg e.2 "[redacted]" else msg) msg

/-- `gopkg.in/yaml.v3`, as far as a load uses it. -/
structure ConfigYaml (A Config : Type) where
  unmarshal : String → Except String (YamlNode A)
  marshal : YamlNode A → Except String String
  decode : String → Except String Config

variable {A Config : Type}

/-- `LoadBytes`, but for the defaults it fills in, which cannot fail. -/
def loadBytes (yaml : ConfigYaml A Config) (orders : LoadOrders) (env : String → String)
    (files : String → Except String String) (raw : String) : Except LoadError Config := do
  let (subst, ph) ← injectEnvPlaceholders env raw
  let root ← (yaml.unmarshal subst).mapError .parse
  let root ← resolveSecretsNode files ph orders.scalar root
  let resolved ← (yaml.marshal root).mapError fun err =>
    .redacted (redactSecretValues orders.message ph
      ("config: re-marshal after secret resolution: " ++ err))
  (yaml.decode resolved).mapError fun err =>
    .redacted (redactSecretValues orders.message ph ("config: parse: " ++ err))

end GenaiBridge
