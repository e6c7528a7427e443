import Typesheet.Declaration.Save
import Typesheet.Schema.Client
import Typesheet.Source.Directory
import Typesheet.Source.Memory

/-!
Contract: clients that share one store.

Owns: the session as a value, the steps that can be taken in it, what each step
replies, and running several steps.  A step that loads sees the store as the
steps before it left it; nothing else passes between clients.
-/

set_option autoImplicit false

namespace Typesheet

inductive Store where
  | memory (store : MemoryStore)
  | directory (tree : FileTree)

def Store.source : Store → Source
  | .memory store => store.source
  | .directory tree => DirectoryStore.source tree.read

/-- The clients of a session by name, with all that they share. -/
structure Session where
  store : Store
  scripts : Table Script := []
  scheme : Scheme := .standard
  maxDepth : Nat := 32
  clients : Table Client := []
  /-- The namespaces whose listing was asked for since the last count. -/
  asked : List NamespaceUri := []
  /-- Where declaration files are saved. -/
  disk : FileTree := {}

namespace Session

/-- The loader that the clients share: prepared answers come before those of the
store. -/
def loader (session : Session) : Loader where
  scheme := session.scheme
  source := session.store.source.scripted session.scripts
  maxDepth := session.maxDepth

inductive BuildCall where
  | named (typename : Text)
  | column (key name typeText : Text)
  | optionalColumn (key name typeText : Text)
  | property (key : Text) (declared : Property)
  | implements (uri : Text)

def BuildCall.apply (definition : Definition) : BuildCall → Definition
  | .named typename => Definition.named typename
  | .column key name typeText => definition.withColumn key name typeText
  | .optionalColumn key name typeText => definition.withOptionalColumn key name typeText
  | .property key declared => definition.withProperty key declared
  | .implements uri => definition.implementing uri

inductive Content where
  | text (text : Text)
  | bytes (bytes : ByteArray)
  | directory

/-- Where a declaration file is saved: on a record of operations that may refuse
one kind of them, or on the disk of the session. -/
inductive SaveTarget where
  | record (refuse : Declaration.Operation → Option Text)
  | disk

inductive ClientStep where
  | load
  | state
  | render (options : Declaration.RenderOptions)
  | intoSchema
  | save (target : SaveTarget) (directory : Text) (name : Option Text)
      (options : Declaration.RenderOptions)

inductive Step where
  | opening (client uri : Text)
  | onClient (client : Text) (step : ClientStep)
  | resolve (uri : Text) (ancestors : List Text)
  | fetch (uri : Text)
  | countAsked
  | script (uri : Text) (script : Script)
  | insert (uri : Text) (definition : Definition)
  | build (uri : Text) (calls : List BuildCall)
  | remove (uri : Text)
  | failOn (uri : Text)
  | writeFile (path : Text) (content : Content)
  | deleteFile (path : Text)

/-- What a step replies. -/
inductive Reply where
  | opened (client : Client)
  | state (client : Client)
  | schema (schema : Schema)
  | text (text : Text)
  | recorded (outcome : Except Declaration.SaveError Declaration.Saved)
      (operations : List Declaration.Operation)
  | saved (outcome : Except Declaration.SaveError Declaration.Saved) (isOnDisk : Bool)
  | noClient
  | addressError (error : AddressError)
  | fetched (listing : Except Text Listing) (registration : Except Text Registration)
  | counts (counts : Table Nat)
  | definition (definition : Option Definition)
  | deleted (wasThere : Bool)
  | done
  | unsupported

/-- How often each address was asked for. -/
def countAll (asked : List NamespaceUri) : Table Nat :=
  asked.foldl (fun counts uri => counts.set uri.text ((counts.get? uri.text).getD 0 + 1)) []

def writeContent (path : Text) (content : Content) (tree : FileTree) : FileTree :=
  let names := Declaration.FileSystem.names path
  match content with
  | .text text => (tree.writeWithParents names (Text.toBytes text)).2
  | .bytes bytes => (tree.writeWithParents names bytes).2
  | .directory => (tree.makeDirectories names).2

/-- The file at a path holds a text. -/
def holds (tree : FileTree) (path data : Text) : Bool :=
  match (tree.descend false [] (Declaration.FileSystem.names path).dropLast).1 with
  | .ok base =>
      match (Declaration.FileSystem.names path).getLast? with
      | some name => tree.node? (base ++ [name]) = some (.file (Text.toBytes data))
      | none => false
  | .error _ => false

/-- Take a step on a client that is there. -/
def clientStep (session : Session) (name : Text) (client : Client) :
    ClientStep → Reply × Session
  | .load =>
      let (client, asked) := client.load session.loader
      (.schema client.schema,
        { session with
          clients := session.clients.set name client
          asked := session.asked ++ asked })
  | .state => (.state client, session)
  | .render options => (.text (Declaration.renderSchema options client.schema), session)
  | .intoSchema =>
      (.schema client.schema, { session with clients := session.clients.remove name })
  | .save (.record refuse) directory fileName options =>
      let answer := fun operation =>
        match refuse operation with
        | some detail => Except.error detail
        | none => Except.ok ()
      let (outcome, operations) := Declaration.save (.recording answer) directory fileName
        options client.schema []
      (.recorded outcome operations, session)
  | .save .disk directory fileName options =>
      let (outcome, disk) := Declaration.save .ofTree directory fileName options
        client.schema session.disk
      let isOnDisk :=
        match outcome with
        | .ok saved => holds disk saved.path saved.data
        | .error _ => false
      (.saved outcome isOnDisk, { session with disk })

/-- Change the memory store, if that is the store of the session. -/
def onMemory (session : Session) (change : MemoryStore → Reply × MemoryStore) :
    Reply × Session :=
  match session.store with
  | .memory store =>
      let (reply, store) := change store
      (reply, { session with store := .memory store })
  | .directory _ => (.unsupported, session)

/-- Change the file tree, if that is the store of the session. -/
def onDirectory (session : Session) (change : FileTree → Reply × FileTree) :
    Reply × Session :=
  match session.store with
  | .directory tree =>
      let (reply, tree) := change tree
      (reply, { session with store := .directory tree })
  | .memory _ => (.unsupported, session)

def step (session : Session) : Step → Reply × Session
  | .opening name uri =>
      let client := Client.ofName session.scheme uri
      (.opened client, { session with clients := session.clients.set name client })
  | .onClient name step =>
      match session.clients.get? name with
      | some client => session.clientStep name client step
      | none => (.noClient, session)
  | .resolve uri ancestors =>
      match session.scheme.readNamespace uri with
      | .ok uri =>
          let loaded := session.loader.load ancestors uri
          (.schema loaded.schema, { session with asked := session.asked ++ loaded.asked })
      | .error error => (.addressError error, session)
  | .fetch uri =>
      match NamespaceUri.read uri with
      | .ok uri =>
          let source := session.store.source
          (.fetched (source.listing uri).toExcept (source.registration uri).toExcept, session)
      | .error error => (.addressError error, session)
  | .countAsked => (.counts (countAll session.asked), { session with asked := [] })
  | .script uri script =>
      (.done, { session with scripts := session.scripts.set uri script })
  | .insert uri definition =>
      session.onMemory fun store => (.definition definition, store.insert uri definition)
  | .build uri calls =>
      let definition := calls.foldl BuildCall.apply {}
      session.onMemory fun store => (.definition definition, store.insert uri definition)
  | .remove uri =>
      session.onMemory fun store =>
        (.definition (store.definitions.get? uri), store.remove uri)
  | .failOn uri => session.onMemory fun store => (.done, store.failOn uri)
  | .writeFile path content =>
      session.onDirectory fun tree => (.done, writeContent path content tree)
  | .deleteFile path =>
      session.onDirectory fun tree =>
        let (wasThere, tree) := tree.delete (Declaration.FileSystem.names path)
        (.deleted wasThere, tree)

/-- Take several steps: the replies in order, and the session after the last. -/
def run (session : Session) : List Step → List Reply × Session
  | [] => ([], session)
  | next :: rest =>
      let (reply, session) := session.step next
      let (replies, session) := session.run rest
      (reply :: replies, session)

end Session

end Typesheet
