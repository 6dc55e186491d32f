import MiningPipelines.Proto.Message

/-!
# Writing binary messages

Fields are written in the order of their tags and defaults are left out, but the content
of a value and the shape of a part are always written.
-/

namespace MiningPipelines

namespace Proto

/-- A message around one text. -/
def printName (s : String) : Bytes := Field.text 1 s

def printNamesTrace (events : List String) : Bytes := Field.texts 1 events

def printNamesLog (traces : List (List String)) : Bytes :=
  Field.messages 1 printNamesTrace traces

def printHashesTrace (events : List UInt64) : Bytes := Field.packed 1 events

def printHashesLog (traces : List (List UInt64)) : Bytes :=
  Field.messages 2 printHashesTrace traces

/-- The tag of the content that holds a result. -/
def Artifact.tag : Artifact → Nat
  | .tracesSubArrays _ => 5
  | .traceIndexSubArrays _ => 6
  | .colorsLog _ => 9
  | .eventLogInfo _ => 11
  | .graph _ => 15

mutual

/-- The bytes of a value. -/
def Value.print : Value → Bytes
  | ⟨none⟩ => []
  | ⟨some c⟩ => c.print

/-- The field of the content; it is written also when it holds a default. -/
def Content.print : Content → Bytes
  | .string s => Field.printBytes 1 (bytesOfText s)
  | .hashesLog traces => Field.printBytes 2 (Field.optional 1 printHashesLog traces)
  | .namesLog traces => Field.printBytes 3 (Field.optional 1 printNamesLog traces)
  | .uint32 n => Field.printVarint 4 n.toNat
  | .bool b => Field.printVarint 7 b.toNat
  | .enum enumType variant =>
    Field.printBytes 10 (Field.text 1 enumType ++ Field.text 2 variant)
  | .strings items => Field.printBytes 12 (Field.texts 1 items)
  | .pipeline parts => Field.printBytes 13 (Part.printList parts)
  | .float x => Field.printFixed32 16 x.bits
  | .artifact a => Field.printBytes a.tag a.print

/-- The bytes of a part. -/
def Part.print : Part → Bytes
  | ⟨none⟩ => []
  | ⟨some s⟩ => s.print

def Shape.print : Shape → Bytes
  | .operation op => Field.printBytes 1 op.print
  | .parallel parts => Field.printBytes 2 (Part.printList parts)
  | .fetch key tag =>
    Field.printBytes 3 (Field.optional 1 printName key ++ Field.optional 2 printName tag)
  | .fetchAfter key before tag =>
    Field.printBytes 4 (Field.optional 1 printName key ++ Operation.printOption before ++
      Field.optional 3 printName tag)

/-- The fields of a list of parts. -/
def Part.printList : List Part → Bytes
  | [] => []
  | p :: rest => Field.printBytes 1 p.print ++ Part.printList rest

def Operation.print : Operation → Bytes
  | ⟨name, config⟩ => Field.text 1 name ++ Operation.printConfig config

/-- The field of the operation before a fetch. -/
def Operation.printOption : Option Operation → Bytes
  | none => []
  | some op => Field.printBytes 2 op.print

/-- The field of a configuration. -/
def Operation.printConfig : Option (List Entry) → Bytes
  | none => []
  | some entries => Field.printBytes 2 (Entry.printList entries)

/-- The fields of a list of entries. -/
def Entry.printList : List Entry → Bytes
  | [] => []
  | e :: rest => Field.printBytes 1 e.print ++ Entry.printList rest

def Entry.print : Entry → Bytes
  | ⟨key, value⟩ => Field.optional 1 printName key ++ Entry.printValue value

/-- The field of the value of an entry. -/
def Entry.printValue : Option Value → Bytes
  | none => []
  | some v => Field.printBytes 2 v.print

end

def Request.print (r : Request) : Bytes :=
  Field.optional 1 Part.printList r.pipeline ++ Field.messages 2 Entry.print r.context

def PartResult.print (r : PartResult) : Bytes :=
  Field.messages 1 Entry.print r.values ++ Field.optional 2 printName r.tag

def Verdict.print : Verdict → Bytes
  | success executionId => Field.printBytes 1 (printName executionId)
  | error text => Field.printBytes 2 (bytesOfText text)

def Notice.print : Notice → Bytes
  | final verdict => Field.printBytes 1 ((verdict.map Verdict.print).getD [])
  | result r => Field.printBytes 2 r.print
  | log text => Field.printBytes 3 (printName text)

def Message.print (m : Message) : Bytes := (m.notice.map Notice.print).getD []

def ContextRequest.print (r : ContextRequest) : Bytes :=
  Field.optional 1 printName r.executionId ++ Field.optional 2 printName r.key

def Finding.print : Finding → Bytes
  | value v => Field.printBytes 1 v.print
  | error text => Field.printBytes 2 (bytesOfText text)

def ContextReply.print (r : ContextReply) : Bytes := (r.finding.map Finding.print).getD []

end Proto

end MiningPipelines
