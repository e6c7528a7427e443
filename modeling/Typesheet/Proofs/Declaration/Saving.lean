import Typesheet.Declaration.Save
import Typesheet.Proofs.Address.Typename
import Typesheet.Proofs.Declaration.Document
import Typesheet.Proofs.Load.Changing
import Typesheet.Source.Memory

/-!
Contract: what saving a declaration file does to a file system, and under which name.

Owns: a file system that is watched, where failures are reported, the names that stay inside a
directory, the path that a file is saved under, the schemas that loading gives, and the theorem that
says for every file system what saving asks of it, in which order, and what it answers.

Watching changes nothing: a watched file system answers as the one that it is made from, and goes
through the same states (`save_watched`).
-/

set_option autoImplicit false

namespace Typesheet.Declaration

variable {State : Type} {fileSystem : FileSystem State} {directory chosen file : Text}
  {name : Option Text} {options : RenderOptions} {schema : Schema}

/-! ## Watching a file system -/

/-- The same file system with a record of what is asked of it. -/
def FileSystem.watched (fileSystem : FileSystem State) :
    FileSystem (State × List Operation) where
  makeDirectory directory state :=
    let (outcome, after) := fileSystem.makeDirectory directory state.1
    (outcome, after, state.2 ++ [.makeDirectory directory])
  writeFile path data state :=
    let (outcome, after) := fileSystem.writeFile path data state.1
    (outcome, after, state.2 ++ [.writeFile path data])

variable {state middle after : State} {failure : SaveError} {outcome : Except SaveError Unit}

theorem FileSystem.makeDirectory_watched
    (made : fileSystem.makeDirectory directory state = (outcome, after))
    (record : List Operation) :
    fileSystem.watched.makeDirectory directory (state, record)
      = (outcome, after, record ++ [.makeDirectory directory]) := by
  simp only [watched, made]

theorem FileSystem.writeFile_watched {path data : Text}
    (written : fileSystem.writeFile path data state = (outcome, after))
    (record : List Operation) :
    fileSystem.watched.writeFile path data (state, record)
      = (outcome, after, record ++ [.writeFile path data]) := by
  simp only [watched, written]

/-! ## What saving comes to -/

theorem save_of_refused (refused : isFileName (chosenName name schema) = false) (state : State) :
    save fileSystem directory name options schema state
      = (.error (.invalidName (chosenName name schema)), state) := by
  simp only [save, refused, Bool.false_eq_true, ↓reduceIte]

section Accepted

variable (accepted : isFileName (chosenName name schema) = true)

include accepted

theorem save_of_noDirectory
    (made : fileSystem.makeDirectory directory state = (.error failure, after)) :
    save fileSystem directory name options schema state
      = (.error failure, after) := by
  simp only [save, accepted, made, ↓reduceIte]

theorem save_of_notWritten
    (made : fileSystem.makeDirectory directory state = (.ok (), middle))
    (written : fileSystem.writeFile (joinPath directory (withExtension (chosenName name schema)))
      (renderSchema options schema) middle = (.error failure, after)) :
    save fileSystem directory name options schema state
      = (.error failure, after) := by
  simp only [save, accepted, made, written, ↓reduceIte]

theorem save_of_written
    (made : fileSystem.makeDirectory directory state = (.ok (), middle))
    (written : fileSystem.writeFile (joinPath directory (withExtension (chosenName name schema)))
      (renderSchema options schema) middle = (.ok (), after)) :
    save fileSystem directory name options schema state
      = (.ok ⟨joinPath directory (withExtension (chosenName name schema)),
          renderSchema options schema⟩, after) := by
  simp only [save, accepted, made, written, ↓reduceIte]

theorem save_watched_of_noDirectory
    (made : fileSystem.makeDirectory directory state = (.error failure, after))
    (record : List Operation) :
    save fileSystem.watched directory name options schema (state, record)
      = (.error failure, after, record ++ [.makeDirectory directory]) :=
  save_of_noDirectory accepted (FileSystem.makeDirectory_watched made record)

theorem save_watched_of_notWritten
    (made : fileSystem.makeDirectory directory state = (.ok (), middle))
    (written : fileSystem.writeFile (joinPath directory (withExtension (chosenName name schema)))
      (renderSchema options schema) middle = (.error failure, after)) (record : List Operation) :
    save fileSystem.watched directory name options schema (state, record)
      = (.error failure, after,
          record ++ [.makeDirectory directory,
            .writeFile (joinPath directory (withExtension (chosenName name schema)))
              (renderSchema options schema)]) := by
  have watchedMade := FileSystem.makeDirectory_watched made record
  have watchedWritten := FileSystem.writeFile_watched written (record ++ [.makeDirectory directory])
  rw [List.append_assoc] at watchedWritten
  exact save_of_notWritten accepted watchedMade watchedWritten

theorem save_watched_of_written
    (made : fileSystem.makeDirectory directory state = (.ok (), middle))
    (written : fileSystem.writeFile (joinPath directory (withExtension (chosenName name schema)))
      (renderSchema options schema) middle = (.ok (), after)) (record : List Operation) :
    save fileSystem.watched directory name options schema (state, record)
      = (.ok ⟨joinPath directory (withExtension (chosenName name schema)),
          renderSchema options schema⟩, after,
          record ++ [.makeDirectory directory,
            .writeFile (joinPath directory (withExtension (chosenName name schema)))
              (renderSchema options schema)]) := by
  have watchedMade := FileSystem.makeDirectory_watched made record
  have watchedWritten := FileSystem.writeFile_watched written (record ++ [.makeDirectory directory])
  rw [List.append_assoc] at watchedWritten
  exact save_of_written accepted watchedMade watchedWritten

end Accepted

/-- What a file system does on the way: the name is refused, or it makes no directory, or it
writes no file, or it does both. -/
inductive SaveCase (fileSystem : FileSystem State) (directory chosen data : Text)
    (state : State) : Prop where
  | refused (notName : isFileName chosen = false)
  | noDirectory {failure : SaveError} {after : State} (isName : isFileName chosen = true)
      (made : fileSystem.makeDirectory directory state = (.error failure, after))
  | notWritten {failure : SaveError} {middle after : State} (isName : isFileName chosen = true)
      (made : fileSystem.makeDirectory directory state = (.ok (), middle))
      (written : fileSystem.writeFile (joinPath directory (withExtension chosen)) data middle
        = (.error failure, after))
  | written {middle after : State} (isName : isFileName chosen = true)
      (made : fileSystem.makeDirectory directory state = (.ok (), middle))
      (written : fileSystem.writeFile (joinPath directory (withExtension chosen)) data middle
        = (.ok (), after))

theorem save_cases (fileSystem : FileSystem State) (directory chosen data : Text)
    (state : State) : SaveCase fileSystem directory chosen data state := by
  cases isName : isFileName chosen with
  | false => exact .refused isName
  | true =>
      cases made : fileSystem.makeDirectory directory state with
      | mk outcome middle =>
          cases outcome with
          | error failure => exact .noDirectory isName made
          | ok =>
              cases written : fileSystem.writeFile (joinPath directory (withExtension chosen))
                data middle with
              | mk outcome after =>
                  cases outcome with
                  | error failure => exact .notWritten isName made written
                  | ok => exact .written isName made written

/-- **Watching changes nothing** about what is answered and which state is left. -/
theorem save_watched (fileSystem : FileSystem State) (directory : Text) (name : Option Text)
    (options : RenderOptions) (schema : Schema) (state : State) (record : List Operation) :
    let watched := save fileSystem.watched directory name options schema (state, record)
    (watched.1, watched.2.1) = save fileSystem directory name options schema state := by
  intro watched
  cases save_cases fileSystem directory (chosenName name schema) (renderSchema options schema)
    state with
  | refused notName => simp only [watched, save_of_refused notName]
  | noDirectory isName made =>
      simp only [watched, save_of_noDirectory isName made,
        save_watched_of_noDirectory isName made record]
  | notWritten isName made written =>
      simp only [watched, save_of_notWritten isName made written,
        save_watched_of_notWritten isName made written record]
  | written isName made written =>
      simp only [watched, save_of_written isName made written,
        save_watched_of_written isName made written record]

/-! ## Where failures are reported -/

/-- Every operation that fails is reported at its path. -/
structure FileSystem.ReportsPaths (fileSystem : FileSystem State) : Prop where
  makeDirectory : ∀ directory state, ∃ answer,
    (fileSystem.makeDirectory directory state).1
      = Operation.report (.makeDirectory directory) answer
  writeFile : ∀ path data state, ∃ answer,
    (fileSystem.writeFile path data state).1 = Operation.report (.writeFile path data) answer

theorem FileSystem.reportsPaths_recording (answer : Operation → Except Text Unit) :
    (recording answer).ReportsPaths where
  makeDirectory _ _ := ⟨_, rfl⟩
  writeFile _ _ _ := ⟨_, rfl⟩

theorem FileSystem.reportsPaths_ofTree : ofTree.ReportsPaths where
  makeDirectory _ _ := ⟨_, rfl⟩
  writeFile _ _ _ := ⟨_, rfl⟩

theorem Operation.exists_of_report_eq_error {operation : Operation} {answer : Except Text Unit}
    (failed : operation.report answer = .error failure) :
    ∃ detail, failure = .io operation.path detail := by
  cases answer with
  | ok => cases failed
  | error detail => exact ⟨detail, (Except.error.inj failed).symm⟩

/-- **A failure names what failed**: the chosen name, the directory, or the path of the file. -/
theorem failure_of_save (reports : fileSystem.ReportsPaths)
    (failed : (save fileSystem directory name options schema state).1 = .error failure) :
    failure = .invalidName (chosenName name schema)
      ∨ (∃ detail, failure = .io directory detail)
      ∨ ∃ detail,
        failure = .io (joinPath directory (withExtension (chosenName name schema))) detail := by
  cases save_cases fileSystem directory (chosenName name schema) (renderSchema options schema)
    state with
  | refused notName =>
      rw [save_of_refused notName] at failed
      exact .inl (Except.error.inj failed).symm
  | @noDirectory reported after isName made =>
      rw [save_of_noDirectory isName made] at failed
      obtain rfl : reported = failure := Except.error.inj failed
      obtain ⟨answer, answered⟩ := reports.makeDirectory directory state
      rw [made] at answered
      exact .inr (.inl (Operation.exists_of_report_eq_error answered.symm))
  | @notWritten reported middle after isName made written =>
      rw [save_of_notWritten isName made written] at failed
      obtain rfl : reported = failure := Except.error.inj failed
      obtain ⟨answer, answered⟩ := reports.writeFile _ (renderSchema options schema) middle
      rw [written] at answered
      exact .inr (.inr (Operation.exists_of_report_eq_error answered.symm))
  | written isName made written =>
      rw [save_of_written isName made written] at failed
      cases failed

/-! ## Names and paths -/

theorem isFileName_iff :
    isFileName chosen = true ↔ chosen ≠ [] ∧ '/' ∉ chosen ∧ '\\' ∉ chosen := by
  rw [isFileName, Bool.and_eq_true_iff, List.all_eq_true, Bool.not_eq_true',
    List.isEmpty_eq_false_iff]
  refine and_congr_right fun _ => ⟨?_, ?_⟩
  · intro stays
    exact ⟨fun slash => absurd (stays '/' slash) (by decide),
      fun backslash => absurd (stays '\\' backslash) (by decide)⟩
  · intro ⟨noSlash, noBackslash⟩ character member
    have isNoSlash : character ≠ '/' := fun same => noSlash (same ▸ member)
    have isNoBackslash : character ≠ '\\' := fun same => noBackslash (same ▸ member)
    simp [isNoSlash, isNoBackslash]

theorem isFileName_eq_false_iff :
    isFileName chosen = false ↔ chosen = [] ∨ '/' ∈ chosen ∨ '\\' ∈ chosen := by
  rw [← Bool.not_eq_true, isFileName_iff]
  tauto

theorem suffix_withExtension (chosen : Text) : extension <:+ withExtension chosen := by
  unfold withExtension
  split
  case isTrue ends => exact List.isSuffixOf_iff_suffix.mp ends
  case isFalse => exact List.suffix_append chosen extension

theorem prefix_withExtension (chosen : Text) : chosen <+: withExtension chosen := by
  unfold withExtension
  split
  case isTrue => exact List.prefix_refl chosen
  case isFalse => exact List.prefix_append chosen extension

theorem withExtension_of_suffix (ends : extension <:+ file) : withExtension file = file :=
  if_pos (List.isSuffixOf_iff_suffix.mpr ends)

/-- The extension brings no separator of paths with it. -/
theorem isFileName_withExtension (isName : isFileName chosen = true) :
    isFileName (withExtension chosen) = true := by
  unfold withExtension
  split
  case isTrue => exact isName
  case isFalse =>
    obtain ⟨nonempty, noSlash, noBackslash⟩ := isFileName_iff.mp isName
    refine isFileName_iff.mpr ⟨List.append_ne_nil_of_left_ne_nil nonempty extension, ?_, ?_⟩
    · exact List.not_mem_append noSlash (by decide)
    · exact List.not_mem_append noBackslash (by decide)

/-- The names on a path that lead on: an empty one stays where it is. -/
def components (path : Text) : List Text :=
  (FileSystem.names path).filter fun name => !name.isEmpty

theorem components_append_slash (directory rest : Text) :
    components (directory ++ '/' :: rest) = components directory ++ components rest := by
  have split : FileSystem.names (directory ++ '/' :: rest)
      = FileSystem.names directory ++ FileSystem.names rest := by
    simp only [FileSystem.names, List.splitOn_eq_splitOnP]
    exact List.splitOnP_append_cons directory rest (beq_self_eq_true '/')
  rw [components, split, List.filter_append]
  rfl

theorem components_of_isFileName (isName : isFileName file = true) : components file = [file] := by
  obtain ⟨nonempty, noSlash, -⟩ := isFileName_iff.mp isName
  have single : FileSystem.names file = [file] := by
    have split := List.splitOn_intercalate '/' (List.forall_mem_singleton.mpr noSlash)
      (List.cons_ne_nil file [])
    rwa [List.intercalate_singleton] at split
  rw [components, single]
  simp [nonempty]

/-- What a path is joined with: a slash, unless there is one already or nothing to join to. -/
def joint (directory : Text) : Text :=
  if directory = [] ∨ ['/'].isSuffixOf directory then [] else ['/']

theorem joinPath_eq (directory file : Text) :
    joinPath directory file = directory ++ joint directory ++ file := by
  unfold joinPath joint
  split
  case isTrue => rw [List.append_nil]
  case isFalse => rw [List.append_assoc]; rfl

theorem joinPath_inj {other : Text} :
    joinPath directory file = joinPath directory other ↔ file = other := by
  rw [joinPath_eq, joinPath_eq, List.append_right_inj]

/-- **A file lies in its directory**: its path goes on from there by one name. -/
theorem components_joinPath (directory : Text) (isName : isFileName file = true) :
    components (joinPath directory file) = components directory ++ [file] := by
  have single := components_of_isFileName isName
  unfold joinPath
  split
  case isTrue joined =>
    cases joined with
    | inl isEmpty => rw [isEmpty, List.nil_append, single]; rfl
    | inr ends =>
        obtain ⟨front, whole⟩ := List.isSuffixOf_iff_suffix.mp ends
        have again : front ++ ['/'] ++ file = front ++ '/' :: file := List.append_assoc ..
        rw [← whole, again, components_append_slash, components_append_slash, single]
        simp [components, FileSystem.names]
  case isFalse => rw [components_append_slash, single]

/-! ## Saving under the name of the file -/

theorem head?_withExtension (nonempty : chosen ≠ []) :
    (withExtension chosen).head? = chosen.head? := by
  obtain ⟨rest, whole⟩ := prefix_withExtension chosen
  rw [← whole]
  exact List.head?_append_of_ne_nil chosen nonempty

theorem getLast?_withExtension (chosen : Text) : (withExtension chosen).getLast? = some 's' := by
  obtain ⟨front, whole⟩ := suffix_withExtension chosen
  rw [← whole]
  exact List.getLast?_append_of_ne_nil front (by decide)

/-- A name that does not start blank is not changed by trimming the file that it names. -/
theorem trim_withExtension (starts : Text.trimStart chosen = chosen) :
    Text.trim (withExtension chosen) = withExtension chosen := by
  have isTight : Text.Tight (withExtension chosen) := by
    refine ⟨?_, ?_, ?_⟩
    · exact List.ne_nil_of_mem (List.mem_of_getLast? (getLast?_withExtension chosen))
    · intro character isFirst
      by_cases nothing : chosen = []
      · rw [nothing] at isFirst
        cases isFirst
        decide
      · rw [head?_withExtension nothing, ← starts] at isFirst
        exact Text.visible_of_mem_head?_trimStart isFirst
    · intro character isLast
      rw [getLast?_withExtension] at isLast
      cases isLast
      decide
  exact isTight.trim_eq

/-- **The name of a file leads to the file again** exactly when it does not start blank. -/
theorem withExtension_trim_eq_iff :
    withExtension (Text.trim (withExtension chosen)) = withExtension chosen
      ↔ Text.trimStart chosen = chosen := by
  constructor
  · intro same
    have nonempty : Text.trim (withExtension chosen) ≠ [] := by
      rw [ne_eq, Text.trim_eq_nil_iff]
      intro blank
      have hidden := blank 's' (List.mem_of_getLast? (getLast?_withExtension chosen))
      exact absurd hidden (by decide)
    cases chosen with
    | nil => rfl
    | cons first rest =>
        have isFirst : first ∈ (Text.trim (withExtension (first :: rest))).head? := by
          rw [← head?_withExtension nonempty, same,
            head?_withExtension (List.cons_ne_nil first rest)]
          rfl
        have visible := (Text.tight_trim nonempty).first first isFirst
        exact List.dropWhile_cons_of_neg (by simp [visible])
  · intro starts
    rw [trim_withExtension starts, withExtension_of_suffix (suffix_withExtension chosen)]

/-- Saving under the name of the file comes to the same as saving under the name chosen. -/
theorem save_again (accepted : isFileName (chosenName name schema) = true)
    (starts : Text.trimStart (chosenName name schema) = chosenName name schema)
    (fileSystem : FileSystem State) (directory : Text) (options : RenderOptions) (state : State) :
    save fileSystem directory (some (withExtension (chosenName name schema))) options schema state
      = save fileSystem directory name options schema state := by
  have again : chosenName (some (withExtension (chosenName name schema))) schema
      = withExtension (chosenName name schema) := trim_withExtension starts
  have file := withExtension_of_suffix (suffix_withExtension (chosenName name schema))
  simp only [save, again, file, isFileName_withExtension accepted, accepted, ↓reduceIte]

/-! ## The names of loaded schemas -/

/-- The schemas that loading gives: those of namespaces, whatever the store answers from visit to
visit, and those that clients have, also under names that are no addresses. -/
inductive IsLoaded : Schema → Prop where
  | changing (loader : Loader) (answers : ChangingSource) (trail : List Link)
      (ancestors : List Text) (uri : NamespaceUri) :
      IsLoaded (loader.schemaFrom answers trail ancestors uri)
  | unchanging (loader : Loader) (ancestors : List Text) (uri : NamespaceUri) :
      IsLoaded (loader.load ancestors uri).schema
  | client (loader : Loader) (name : Text) :
      IsLoaded ((Client.ofName loader.scheme name).load loader).1.schema

theorem trim_typename_assemble (loader : Loader) (uri : NamespaceUri)
    (resolution : Link → Resolution) :
    Text.trim (loader.assemble uri resolution).typename
      = (loader.assemble uri resolution).typename := by
  unfold Loader.assemble
  split
  case h_1 => rfl
  case h_2 =>
    split
    case isTrue => exact Text.trim_trim _
    case isFalse => rfl

/-- The type name of a loaded schema has no white space around it. -/
theorem IsLoaded.trim_typename (loaded : IsLoaded schema) :
    Text.trim schema.typename = schema.typename := by
  cases loaded with
  | changing loader answers trail ancestors uri =>
      rw [Loader.schemaFrom_eq]
      exact trim_typename_assemble _ uri _
  | unchanging loader ancestors uri =>
      rw [Loader.schema_load]
      exact trim_typename_assemble loader uri _
  | client loader name =>
      unfold Client.ofName
      extract_lets normalized
      split
      case h_1 uri _ =>
        change Text.trim (loader.load [] uri).schema.typename = (loader.load [] uri).schema.typename
        rw [Loader.schema_load]
        exact trim_typename_assemble loader uri _
      case h_2 => rfl

theorem tight_displayTypename (trimmed : Text.trim schema.typename = schema.typename) :
    Text.Tight schema.displayTypename := by
  unfold Schema.displayTypename
  split
  case isTrue => exact Address.tight_typename schema.uri
  case isFalse declared =>
    rw [← trimmed] at declared ⊢
    exact Text.tight_trim declared

/-- A chosen name does not start blank when it was given or is that of a loaded schema. -/
theorem trimStart_chosenName
    (trimmed : name.isSome = true ∨ Text.trim schema.typename = schema.typename) :
    Text.trimStart (chosenName name schema) = chosenName name schema := by
  have keeps {text : Text} (tight : Text.Tight text) : Text.trimStart text = text := by
    have kept := tight.trimStart_append []
    rwa [List.append_nil] at kept
  cases name with
  | some name =>
      change Text.trimStart (Text.trim name) = Text.trim name
      by_cases nothing : Text.trim name = []
      · rw [nothing]
        rfl
      · exact keeps (Text.tight_trim nothing)
  | none =>
      cases trimmed with
      | inl given => exact absurd given Bool.false_ne_true
      | inr trimmed => exact keeps (tight_displayTypename trimmed)

/-- The root interface of a document takes the display name of its schema. -/
theorem rootName_eq_displayTypename (trimmed : Text.trim schema.typename = schema.typename) :
    rootName schema.uri schema.typename = schema.displayTypename := by
  rw [rootName, Text.isBlankText, trimmed, Schema.displayTypename]
  simp only [List.isEmpty_iff]

theorem name_prefix_interfaceText (nameOf : Ref → Text) (pad : Text) (interface : Interface) :
    "export interface ".toList ++ interface.name <+: interfaceText nameOf pad interface := by
  obtain ⟨rest, text⟩ := exists_opening_interfaceText nameOf pad interface
  rw [text]
  exact ⟨(interface.base.map fun base => " extends ".toList ++ base).getD []
    ++ (" \x7b".toList ++ rest), by simp⟩

/-- A document opens with the name of its root interface, which is that of the schema. -/
theorem exists_root_of_renderSchema (options : RenderOptions) (schema : Schema) :
    ∃ root rest, interfacesOf schema.uri schema.typename schema.implements schema.columns
        = root :: rest
      ∧ root.name = rootName schema.uri schema.typename
      ∧ (if options.includeHeader then header schema.uri else [])
        ++ ("export interface ".toList ++ root.name) <+: renderSchema options schema := by
  obtain ⟨-, root, rest, listed, isRoot, -, -⟩ := interfacesOf_collected schema.uri
    schema.typename schema.implements schema.columns
  refine ⟨root, rest, listed, isRoot, ?_⟩
  rw [renderSchema, renderWithBase, listed, List.map_cons, List.prefix_append_right_inj]
  have opening := name_prefix_interfaceText (referenceName (root :: rest))
    (List.replicate options.indent ' ') root
  refine opening.trans ?_
  cases rest with
  | nil =>
      simp only [List.map_nil, List.intercalate_singleton, List.prefix_refl]
  | cons next others =>
      rw [List.map_cons, List.intercalate_cons_cons, List.append_assoc]
      exact List.prefix_append _ _

/-- **Saving is confined to a directory and ordered**, on every file system and in every state.
A chosen name that is empty or holds a slash is refused, and nothing is asked of the file system.
Otherwise the directory is made first; if that fails, its failure is the answer and nothing is
written.  Otherwise the document is written, once, to the path that goes on from the directory by
the name of the file, which holds no slash and ends in the extension; the answer is the failure of
that, or the path and the document.  The extension is added where it is missing only.  So the name
of the file leads to the same path exactly when the chosen name does not start blank, and then
saving under it is the same in every state; a name that was given and the name of a loaded schema
do not start blank.  And the name that a loaded schema is saved under is that of the root
interface which its document opens with. -/
theorem saving_is_confined_and_ordered (fileSystem : FileSystem State) (directory : Text)
    (name : Option Text) (options : RenderOptions) (schema : Schema) (state : State)
    (record : List Operation) :
    let chosen := chosenName name schema
    let file := withExtension chosen
    let path := joinPath directory file
    let data := renderSchema options schema
    let run := save fileSystem.watched directory name options schema (state, record)
    (run.1, run.2.1) = save fileSystem directory name options schema state
      ∧ (chosen = [] ∨ '/' ∈ chosen ∨ '\\' ∈ chosen →
        run = (.error (.invalidName chosen), state, record))
      ∧ (¬ (chosen = [] ∨ '/' ∈ chosen ∨ '\\' ∈ chosen) →
        (∀ failure after, fileSystem.makeDirectory directory state = (.error failure, after) →
          run = (.error failure, after, record ++ [.makeDirectory directory]))
        ∧ (∀ middle, fileSystem.makeDirectory directory state = (.ok (), middle) →
          (∀ failure after, fileSystem.writeFile path data middle = (.error failure, after) →
            run = (.error failure, after,
              record ++ [.makeDirectory directory, .writeFile path data]))
          ∧ ∀ after, fileSystem.writeFile path data middle = (.ok (), after) →
            run = (.ok ⟨path, data⟩, after,
              record ++ [.makeDirectory directory, .writeFile path data]))
        ∧ components path = components directory ++ [file]
        ∧ path = directory ++ joint directory ++ file
        ∧ '/' ∉ file ∧ '\\' ∉ file ∧ extension <:+ file
        ∧ ((extension <:+ chosen → file = chosen)
          ∧ (¬ extension <:+ chosen → file = chosen ++ extension))
        ∧ (joinPath directory (withExtension (chosenName (some file) schema)) = path
          ↔ Text.trimStart chosen = chosen)
        ∧ (Text.trimStart chosen = chosen →
          ∀ later, save fileSystem directory (some file) options schema later
            = save fileSystem directory name options schema later)
        ∧ (name.isSome = true ∨ IsLoaded schema → Text.trimStart chosen = chosen))
      ∧ (IsLoaded schema →
        ∃ root rest, interfacesOf schema.uri schema.typename schema.implements schema.columns
            = root :: rest
          ∧ (name = none → chosen = root.name
            ∧ file = if extension.isSuffixOf root.name then root.name else root.name ++ extension)
          ∧ (if options.includeHeader then header schema.uri else [])
            ++ ("export interface ".toList ++ root.name) <+: data) := by
  intro chosen file path data run
  refine ⟨save_watched fileSystem directory name options schema state record, ?_, ?_, ?_⟩
  · intro refused
    exact save_of_refused (isFileName_eq_false_iff.mpr refused) (state, record)
  · intro notRefused
    have accepted : isFileName chosen = true := by
      rwa [← isFileName_eq_false_iff, Bool.not_eq_false] at notRefused
    have isFile := isFileName_iff.mp (isFileName_withExtension accepted)
    refine ⟨?_, ?_, components_joinPath directory (isFileName_withExtension accepted),
      joinPath_eq directory file, isFile.2.1, isFile.2.2, suffix_withExtension chosen,
      ⟨withExtension_of_suffix, ?_⟩, joinPath_inj.trans withExtension_trim_eq_iff, ?_, ?_⟩
    · intro failure after made
      exact save_watched_of_noDirectory accepted made record
    · intro middle made
      refine ⟨?_, ?_⟩
      · intro failure after written
        exact save_watched_of_notWritten accepted made written record
      · intro after written
        exact save_watched_of_written accepted made written record
    · intro missing
      exact if_neg (by rwa [List.isSuffixOf_iff_suffix])
    · intro starts later
      exact save_again accepted starts fileSystem directory options later
    · intro known
      exact trimStart_chosenName (known.imp_right IsLoaded.trim_typename)
  · intro loaded
    obtain ⟨root, rest, listed, isRoot, opening⟩ := exists_root_of_renderSchema options schema
    refine ⟨root, rest, listed, ?_, opening⟩
    intro isDefault
    have same : chosen = root.name := by
      rw [isRoot, rootName_eq_displayTypename loaded.trim_typename]
      exact congrArg (chosenName · schema) isDefault
    exact ⟨same, congrArg withExtension same⟩

/-- A namespace whose type name is declared with a blank in front. -/
private def paddedDeclaration : Loader where
  scheme := .standard
  source := MemoryStore.source
    { definitions := [("ns:foo".toList, Definition.named " Foo".toList)] }
  maxDepth := 2

/-- Loading trims the declared type name, so both saves go to one file. -/
theorem padded_declaration_has_one_file :
    let answers := FileSystem.recording fun _ => .ok ()
    let options := { includeHeader := false, indent := 2 }
    let schema := (paddedDeclaration.load [] ⟨"ns:foo".toList, by decide⟩).schema
    IsLoaded schema
      ∧ chosenName none schema = "Foo".toList
      ∧ (save answers "d".toList none options schema []).1
        = .ok ⟨"d/Foo.d.ts".toList, "export interface Foo \x7b\x7d\n".toList⟩
      ∧ ∀ later, save answers "d".toList (some "Foo.d.ts".toList) options schema later
        = save answers "d".toList none options schema later := by
  intro answers options schema
  have loaded : IsLoaded schema := .unchanging _ [] _
  have chosen : chosenName none schema = "Foo".toList := by decide +kernel
  obtain ⟨-, -, whenAccepted, -⟩ :=
    saving_is_confined_and_ordered answers "d".toList none options schema [] []
  rw [chosen] at whenAccepted
  obtain ⟨-, -, -, -, -, -, -, -, -, again, starts⟩ := whenAccepted (by decide)
  exact ⟨loaded, chosen, by decide +kernel, again (starts (.inr loaded))⟩

/-- A schema that no load gives: its type name starts blank. -/
private def padded : Schema :=
  { uri := "ns:foo".toList, typename := " Foo".toList }

/-- Saved once under its own name and once under the name of the file that this makes, a schema
whose type name starts blank has two files. -/
theorem padded_schema_has_two_files :
    let answers := FileSystem.recording fun _ => .ok ()
    let options := { includeHeader := false, indent := 2 }
    let first := (save answers "d".toList none options padded []).1
    let second := (save answers "d".toList (some " Foo.d.ts".toList) options padded []).1
    let data := "export interface Foo \x7b\x7d\n".toList
    first = .ok ⟨"d/ Foo.d.ts".toList, data⟩
      ∧ components "d/ Foo.d.ts".toList = components "d".toList ++ [" Foo.d.ts".toList]
      ∧ second = .ok ⟨"d/Foo.d.ts".toList, data⟩
      ∧ first ≠ second := by
  decide +kernel

end Typesheet.Declaration
