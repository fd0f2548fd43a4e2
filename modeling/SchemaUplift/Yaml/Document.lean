import SchemaUplift.Yaml.Node
import SchemaUplift.Yaml.Token

/-! Documents read from text, by way of its tokens. -/

namespace SchemaUplift.Yaml

/-- A node that was read, and the tokens after it. -/
abbrev NodeRead := Node × List Token

namespace Token

/-- Whether nothing was written in a block collection before the given tokens. -/
def endsBlockNode : List Token → Bool
  | .key :: _ | .value :: _ | .blockEnd :: _ => true
  | _ => false

/-- Whether nothing was written in brackets or braces before the given tokens. -/
def endsFlowNode : List Token → Bool
  | .value :: _ | .comma :: _ | .closeBracket :: _ | .closeBrace :: _ => true
  | _ => false

end Token

mutual

/-- Reads the node that the tokens start with. It may be a block collection if `inBlock` holds. -/
def readNode (inBlock : Bool) (tokens : List Token) : Nat → Option NodeRead
  | 0 => none
  | budget + 1 =>
    match inBlock, tokens with
    | _, .scalar text plain :: rest => some (.scalar text plain, rest)
    | _, .openBracket :: rest =>
      (readFlowItems true rest budget).map fun (items, rest) => (.sequence items, rest)
    | _, .openBrace :: rest =>
      (readFlowEntries true rest budget).map fun (entries, rest) => (.mapping entries, rest)
    | true, .blockSequence :: rest => do
      match ← readBlockItems rest budget with
      | (items, .blockEnd :: rest) => some (.sequence items, rest)
      | _ => none
    | true, .blockMapping :: rest => do
      match ← readBlockEntries rest budget with
      | (entries, .blockEnd :: rest) => some (.mapping entries, rest)
      | _ => none
    | _, _ => none

/-- Reads a node in a block collection, where nothing may be written. As a part of an entry, dashes
are a sequence in the column of its key. -/
def readBlockNode (inEntry : Bool) (tokens : List Token) : Nat → Option NodeRead
  | 0 => none
  | budget + 1 =>
    match tokens with
    | .dash :: _ =>
      if inEntry then
        (readBlockItems tokens budget).map fun (items, rest) => (.sequence items, rest)
      else some (.blank, tokens)
    | _ =>
      if Token.endsBlockNode tokens then some (.blank, tokens) else readNode true tokens budget

/-- Reads the items of a block sequence. -/
def readBlockItems (tokens : List Token) : Nat → Option (List Node × List Token)
  | 0 => none
  | budget + 1 =>
    match tokens with
    | .dash :: rest => do
      let (item, rest) ← readBlockNode false rest budget
      let (items, rest) ← readBlockItems rest budget
      return (item :: items, rest)
    | _ => some ([], tokens)

/-- Reads the entries of a block mapping; a key may lack its value. -/
def readBlockEntries (tokens : List Token) : Nat → Option (List (Node × Node) × List Token)
  | 0 => none
  | budget + 1 =>
    match tokens with
    | .key :: rest => do
      let (key, rest) ← readBlockNode true rest budget
      let (value, rest) ← match rest with
        | .value :: rest => readBlockNode true rest budget
        | _ => some (.blank, rest)
      let (entries, rest) ← readBlockEntries rest budget
      return ((key, value) :: entries, rest)
    | _ => some ([], tokens)

/-- Reads a node inside brackets or braces, where nothing may be written. -/
def readFlowNode (tokens : List Token) : Nat → Option NodeRead
  | 0 => none
  | budget + 1 =>
    if Token.endsFlowNode tokens then some (.blank, tokens) else readNode false tokens budget

/-- Reads the value after a key inside brackets or braces; it may be missing, with its colon. -/
def readFlowValue (tokens : List Token) : Nat → Option NodeRead
  | 0 => none
  | budget + 1 =>
    match tokens with
    | .value :: rest => readFlowNode rest budget
    | _ => some (.blank, tokens)

/-- Reads an item in brackets. A key with its value is one, too; where the key is missing after its
question mark, the token that shows this is passed over. -/
def readFlowItem (tokens : List Token) : Nat → Option NodeRead
  | 0 => none
  | budget + 1 =>
    match tokens with
    | .key :: rest => do
      let (key, rest) ← match rest with
        | .value :: rest | .comma :: rest | .closeBracket :: rest => some (.blank, rest)
        | _ => readNode false rest budget
      let (value, rest) ← readFlowValue rest budget
      return (.mapping [(key, value)], rest)
    | _ => readNode false tokens budget

/-- Reads the items up to a closing bracket, after the first one with a comma before each. -/
def readFlowItems (first : Bool) (tokens : List Token) : Nat → Option (List Node × List Token)
  | 0 => none
  | budget + 1 =>
    match first, tokens with
    | _, .closeBracket :: rest => some ([], rest)
    | false, .comma :: .closeBracket :: rest => some ([], rest)
    | false, .comma :: rest | true, rest => do
      let (item, rest) ← readFlowItem rest budget
      let (items, rest) ← readFlowItems false rest budget
      return (item :: items, rest)
    | false, _ => none

/-- Reads an entry in braces; it may lack its key or its value. -/
def readFlowEntry (tokens : List Token) : Nat → Option ((Node × Node) × List Token)
  | 0 => none
  | budget + 1 =>
    match tokens with
    | .key :: rest => do
      let (key, rest) ← readFlowNode rest budget
      let (value, rest) ← readFlowValue rest budget
      return ((key, value), rest)
    | _ => (readNode false tokens budget).map fun (key, rest) => ((key, .blank), rest)

/-- Reads the entries up to a closing brace, after the first one with a comma before each. -/
def readFlowEntries (first : Bool) (tokens : List Token) :
    Nat → Option (List (Node × Node) × List Token)
  | 0 => none
  | budget + 1 =>
    match first, tokens with
    | _, .closeBrace :: rest => some ([], rest)
    | false, .comma :: .closeBrace :: rest => some ([], rest)
    | false, .comma :: rest | true, rest => do
      let (entry, rest) ← readFlowEntry rest budget
      let (entries, rest) ← readFlowEntries false rest budget
      return (entry :: entries, rest)
    | false, _ => none

end

/-- A bound on the depth of calls that read tokens: between two tokens at most four functions call
each other. -/
def readBudget (tokens : List Token) : Nat := 4 * tokens.length + 8

/-- Reads the node of the only document in a list of tokens. There may be none after a mark that
starts the document, or without any token. Only marks that end a document may follow. -/
def Node.ofTokens? (tokens : List Token) : Option Node := do
  let (node, rest) ← match tokens with
    | [] => some (.blank, [])
    | .version :: .documentStart :: rest | .documentStart :: rest =>
      match rest with
      | [] | .documentEnd :: _ => some (.blank, rest)
      | _ => readNode true rest (readBudget rest)
    | _ => readNode true tokens (readBudget tokens)
  if rest.all fun | .documentEnd => true | _ => false then some node else none

/-- Reads the only document of a text. A text without a node is a blank document. -/
def document? (text : String) : Option Node :=
  if text.toList.all isAllowed then
    (Token.ofText? (unifyBreaks text.toList)).bind Node.ofTokens?
  else none

end SchemaUplift.Yaml
