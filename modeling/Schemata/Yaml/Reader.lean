import Schemata.Yaml.Lexer
import Schemata.Yaml.Node

/-!
Reading a YAML text: the nodes that its tokens make, and the settings of the one document that it may hold.

An anchor gives a node a name, and an alias stands for the node that got the name last. An alias inside of the
node that it names is unfit.
-/
namespace Schemata.Yaml

/-- The tokens that are left, and what names stand for. -/
structure Source where
  tokens : List Token
  /-- The number of the anchor that holds a name, the latest first. -/
  anchors : List (String × Nat)
  /-- The nodes that anchors were given, by number. -/
  nodes : List (Nat × Node)
  /-- What the handles of tags stand for. -/
  handles : List (String × String)

namespace Source

def ofTokens (tokens : List Token) : Source := ⟨tokens, [], [], []⟩

def peek (s : Source) : Option Token := s.tokens.head?

def drop (s : Source) : Source := { s with tokens := s.tokens.drop 1 }

def nextIs (tokens : List Token) (s : Source) : Bool := s.peek.any (· ∈ tokens)

def pass? (token : Token) (s : Source) : Option Source := if s.peek = some token then some s.drop else none

def anchor (name : String) (s : Source) : Nat × Source :=
  (s.anchors.length, { s with anchors := (name, s.anchors.length) :: s.anchors })

/-- What a tag stands for: the meaning of its handle, and its suffix. A closed handle needs a meaning. -/
def tag? (handle suffix : String) (s : Source) : Option (String × String) :=
  match s.handles.lookup handle with
  | some meaning => some (meaning, suffix)
  | none =>
    if handle = "!!" then some ("tag:yaml.org,2002:", suffix)
    else if isClosedHandle handle.toList then none
    else some (handle, suffix)

def properties? (s : Source) : Option (Option Nat × Option (String × String) × Source) :=
  match s.tokens with
  | .anchor name :: .tag handle suffix :: _ =>
    (s.tag? handle suffix).map fun tag =>
      let (number, s) := s.drop.drop.anchor name
      (some number, some tag, s)
  | .tag handle suffix :: .anchor name :: _ =>
    (s.tag? handle suffix).map fun tag =>
      let (number, s) := s.drop.drop.anchor name
      (some number, some tag, s)
  | .anchor name :: _ =>
    let (number, s) := s.drop.anchor name
    some (some number, none, s)
  | .tag handle suffix :: _ => (s.tag? handle suffix).map fun tag => (none, some tag, s.drop)
  | _ => some (none, none, s)

/-- The node of a scalar with its tag, if it has one. A scalar that is not plain is a text. -/
def scalar (isPlain : Bool) (tag : Option (String × String)) (text : String) : Node :=
  .leaf (if !isPlain then .text text
    else
      match tag with
      | none => .ofPlain text
      | some (meaning, suffix) =>
        if meaning = "tag:yaml.org,2002:" then .ofTag suffix text else .text text)

def alias? (name : String) (s : Source) : Option Node :=
  (s.anchors.lookup name).map fun number => (s.nodes.lookup number).getD (.leaf .unfit)

def keep (anchor : Option Nat) (found : Node × Source) : Node × Source :=
  match anchor with
  | some number => (found.1, { found.2 with nodes := (number, found.1) :: found.2.nodes })
  | none => found

mutual
def nodeOr? : (bound : Nat) → (missing : List Token) → (block indentless : Bool) → Source →
    Option (Node × Source)
  | 0, _, _, _, _ => none
  | bound + 1, missing, block, indentless, s =>
    if s.nextIs missing then some (.nothing, s) else node? bound block indentless s

/-- A node. With `block` it may be a block, and with `indentless` a list whose items are not indented. -/
def node? : (bound : Nat) → (block indentless : Bool) → Source → Option (Node × Source)
  | 0, _, _, _ => none
  | bound + 1, block, indentless, s =>
    match s.peek with
    | some (.alias name) => (s.alias? name).map fun node => (node, s.drop)
    | _ =>
      match s.properties? with
      | none => none
      | some (anchor, tag, s) =>
        let found : Option (Node × Source) := match s.peek with
          | some .blockItem =>
            if indentless then (looseItems? bound [] s).map fun (row, s) => (Node.list row, s)
            else if tag.isSome || anchor.isSome then some (scalar true tag "", s)
            else none
          | some (.scalar isPlain text) => some (scalar isPlain tag text, s.drop)
          | some .flowListStart =>
            (flowItems? bound true [] s.drop).map fun (row, s) => (Node.list row, s)
          | some .flowMapStart =>
            (flowPairs? bound true [] s.drop).bind fun (row, s) => (Node.mapping? row).map (·, s)
          | some .blockListStart =>
            if block then (blockItems? bound [] s.drop).map fun (row, s) => (Node.list row, s)
            else if tag.isSome || anchor.isSome then some (scalar true tag "", s)
            else none
          | some .blockMapStart =>
            if block then
              (blockPairs? bound [] s.drop).bind fun (row, s) => (Node.mapping? row).map (·, s)
            else if tag.isSome || anchor.isSome then some (scalar true tag "", s)
            else none
          | _ => if tag.isSome || anchor.isSome then some (scalar true tag "", s) else none
        found.map (keep anchor)

def looseItems? : (bound : Nat) → (seen : List Node) → Source → Option (List Node × Source)
  | 0, _, _ => none
  | bound + 1, seen, s =>
    match s.pass? .blockItem with
    | none => some (seen.reverse, s)
    | some s =>
      match nodeOr? bound [.blockItem, .key, .value, .blockEnd] true false s with
      | none => none
      | some (node, s) => looseItems? bound (node :: seen) s

def blockItems? : (bound : Nat) → (seen : List Node) → Source → Option (List Node × Source)
  | 0, _, _ => none
  | bound + 1, seen, s =>
    if s.nextIs [.blockEnd] then some (seen.reverse, s.drop)
    else
      match s.pass? .blockItem with
      | none => none
      | some s =>
        match nodeOr? bound [.blockItem, .blockEnd] true false s with
        | none => none
        | some (node, s) => blockItems? bound (node :: seen) s

def blockPairs? : (bound : Nat) → (seen : List Node) → Source → Option (List Node × Source)
  | 0, _, _ => none
  | bound + 1, seen, s =>
    if s.nextIs [.blockEnd] then some (seen.reverse, s.drop)
    else
      let key := match s.pass? .key with
        | some s => nodeOr? bound [.key, .value, .blockEnd] true true s
        | none => if s.nextIs [.value] then some (.nothing, s) else none
      match key with
      | none => none
      | some (key, s) =>
        let value := match s.pass? .value with
          | some s => nodeOr? bound [.key, .value, .blockEnd] true true s
          | none => some (.nothing, s)
        match value with
        | none => none
        | some (value, s) => blockPairs? bound (value :: key :: seen) s

def flowPairs? : (bound : Nat) → (first : Bool) → (seen : List Node) → Source →
    Option (List Node × Source)
  | 0, _, _, _ => none
  | bound + 1, first, seen, s =>
    if s.nextIs [.flowMapEnd] then some (seen.reverse, s.drop)
    else
      match if first then some s else s.pass? .flowItem with
      | none => none
      | some s =>
        if s.nextIs [.flowMapEnd] then some (seen.reverse, s.drop)
        else
          let key := match s.pass? .key with
            | some s => nodeOr? bound [.value, .flowItem, .flowMapEnd] false false s
            | none => nodeOr? bound [.value] false false s
          match key with
          | none => none
          | some (key, after) =>
            let value := match after.pass? .value with
              | some after =>
                if s.nextIs [.key, .value] then
                  nodeOr? bound [.flowItem, .flowMapEnd] false false after
                else none
              | none => some (.nothing, after)
            match value with
            | none => none
            | some (value, s) => flowPairs? bound false (value :: key :: seen) s

/-- The items of a list in brackets, up to its end. A key among them starts a mapping of one pair. -/
def flowItems? : (bound : Nat) → (first : Bool) → (seen : List Node) → Source →
    Option (List Node × Source)
  | 0, _, _, _ => none
  | bound + 1, first, seen, s =>
    if s.nextIs [.flowListEnd] then some (seen.reverse, s.drop)
    else
      match if first then some s else s.pass? .flowItem with
      | none => none
      | some s =>
        if s.nextIs [.flowListEnd] then some (seen.reverse, s.drop)
        else
          let item := match s.pass? .key with
            | none => node? bound false false s
            | some s =>
              let key := if s.nextIs [.value, .flowItem, .flowListEnd] then some (.nothing, s.drop)
                else node? bound false false s
              match key with
              | none => none
              | some (key, s) =>
                let value := match s.pass? .value with
                  | some s => nodeOr? bound [.flowItem, .flowListEnd] false false s
                  | none => some (.nothing, s)
                match value with
                | none => none
                | some (value, s) => (Node.mapping? [key, value]).map (·, s)
          match item with
          | none => none
          | some (item, s) => flowItems? bound false (item :: seen) s
end

/-- A whole node; each token takes at most three steps. -/
def root? (s : Source) : Option (Node × Source) := node? (3 * s.tokens.length + 3) true false s

/-- The directives before a document, at most `bound` of them. Only the last one says what a handle stands
for. A version is given once. -/
def directives? : (bound : Nat) → (versioned : Bool) → Source → Option Source
  | 0, _, _ => none
  | bound + 1, versioned, s =>
    match s.peek with
    | some .versionLine =>
      if versioned then none else directives? bound true { s.drop with handles := [] }
    | some (.tagLine handle meaning) =>
      directives? bound versioned { s.drop with handles := [(handle, meaning)] }
    | _ => some s

def isDirective : Token → Bool
  | .versionLine => true
  | .tagLine _ _ => true
  | _ => false

def content? (s : Source) : Option (Node × Source) :=
  let ends (token : Token) : Bool := isDirective token || token ∈ [.documentStart, .documentEnd]
  if s.peek.all ends then some (.nothing, s)
  else s.root?

/-- The documents of a text, at most `bound` of them. Only at the start of the text and after a closing mark
can one do without an opening mark. -/
def documents? : (bound : Nat) → (unmarked : Bool) → (seen : List Node) → Source → Option (List Node)
  | 0, _, _, _ => none
  | bound + 1, unmarked, seen, s =>
    let s := { s with tokens := s.tokens.dropWhile (· = Token.documentEnd) }
    match s.peek with
    | none => some seen.reverse
    | some token =>
      let found := if unmarked && !(isDirective token || token = Token.documentStart) then s.root?
        else do
          let s ← directives? (s.tokens.length + 1) false s
          let s ← s.pass? .documentStart
          s.content?
      match found with
      | none => none
      | some (node, s) =>
        let s := ofTokens s.tokens
        match s.pass? .documentEnd with
        | some s => documents? bound true (node :: seen) s
        | none => if s.peek.any isDirective then none else documents? bound false (node :: seen) s

end Source

def read? (s : String) : Option (List (String × Setting)) := do
  let tokens ← tokens? s
  match ← (Source.ofTokens tokens).documents? (tokens.length + 1) true [] with
  | [] => some []
  | [node] =>
    let .table entries ← node.toSetting? | none
    return entries.entries
  | _ => none

end Schemata.Yaml
