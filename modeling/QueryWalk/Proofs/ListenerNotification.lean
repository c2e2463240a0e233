import QueryWalk.Proofs.EagerHandlers
import QueryWalk.Proofs.ListenerRetelling

namespace QueryWalk

/-!
# What a listener is told

A listener is told of every choice of a handler right before the handler is called, and
then the handler runs before anything else does. So if every handler begins by making a
mark, each entry of the listener with a type stands right before the mark of the handler
of that type, and no mark stands anywhere else. Only where the listener gives up nothing
is called. Whatever is called in between, lazily or not, caught or not, the log stays a
sequence of such pairs and of entries of other actions.
-/

/-- A way to mark for what a handler is called, and under which type. -/
structure Marking where
  /-- What a handler of a type has to log. -/
  expression : NodeType → Expression
  /-- The value it comes to at a node. -/
  mark : NodeKind → List Attribute → NodeType → Value
  eval_expression :
    ∀ type node context,
      (expression type).eval (.start node context) =
        .ok (mark node.kind node.attributes type)
  /-- A mark tells for what it was made. -/
  mark_injective :
    ∀ {kind other : NodeKind} {attributes others : List Attribute}
      {type otherType : NodeType},
      mark kind attributes type = mark other others otherType →
      kind = other ∧ attributes = others ∧ type = otherType

/-- The kind, the attributes and the name of the type, in a list. -/
def Marking.plain : Marking where
  expression type :=
    .list [.kind, .attributes, .constant (.text type.name)]
  mark kind attributes type :=
    .list
      [.text kind.name,
        .list (attributes.map fun declared => .data declared.toData),
        .text type.name]
  eval_expression _ _ _ := rfl
  mark_injective same := by
    simp only [Value.text, Value.list.injEq, List.cons.injEq,
      Value.data.injEq, Data.text.injEq, and_true] at same
    obtain ⟨names, declared, typeNames⟩ := same
    have kinds := congrArg NodeKind.ofName? names
    have types := congrArg NodeType.ofName? typeNames
    have dataInjective :
        Function.Injective fun declared : Attribute =>
          Value.data declared.toData :=
      fun _ _ isSame => Attribute.toData_injective (Value.data.inj isSame)
    rw [NodeKind.ofName?_name, NodeKind.ofName?_name] at kinds
    rw [NodeType.ofName?_name, NodeType.ofName?_name] at types
    exact
      ⟨Option.some.inj kinds,
        List.map_injective_iff.mpr dataInjective declared,
        Option.some.inj types⟩

/-- An action that logs only some values, if it logs any. -/
def Action.LogsOnly (others : Value → Prop) : Action → Prop
  | .log value =>
      ∀ scope logged,
        value.eval scope = .ok logged →
        others logged
  | _ => True

/-- A handler begins with its mark, and after that it logs only other values. -/
def Handler.BeginsWithMark
    (marking : Marking)
    (others : Value → Prop)
    (type : NodeType)
    (handler : Handler) :
    Prop :=
  ∃ rest,
    handler.actions = .log (marking.expression type) :: rest ∧
      Action.AllThroughout (Action.LogsOnly others) rest

/-- An entry among those of some notes is one of the notes. -/
theorem Note.exists_of_filterMap_entry?
    {notes : List Note}
    {before after : List LogEntry}
    {told : LogEntry}
    (split : notes.filterMap entry? = before ++ told :: after) :
    ∃ earlier later,
      notes = earlier ++ .entry told :: later ∧
        earlier.filterMap entry? = before ∧
        later.filterMap entry? = after := by
  obtain ⟨first, second, rfl, rfl, isLater⟩ :=
    List.filterMap_eq_append_iff.mp split
  obtain ⟨silent, note, later, rfl, areSilent, isTold, rfl⟩ :=
    List.filterMap_eq_cons_iff.mp isLater
  have isEntry : note = .entry told := by
    cases note with
    | entry other =>
        exact congrArg Note.entry (Option.some.inj isTold)
    | entered =>
        cases isTold
  subst isEntry
  refine ⟨first ++ silent, later, ?_, ?_, rfl⟩
  · rw [List.append_assoc]
  · rw [List.filterMap_append, List.filterMap_eq_nil_iff.mpr areSilent,
      List.append_nil]

/-- What handlers there are, who listens, and what is logged. -/
structure Reporting where
  handlers : HandlerMap Handler
  /-- The kind at which the listener gives up. -/
  rejected : Option NodeKind
  marking : Marking
  /-- The values that are logged without being marks. -/
  others : Value → Prop

namespace Reporting

variable (reporting : Reporting)

/-- The type under which the handler of a kind is registered, if it has one. -/
def type? (kind : NodeKind) : Option NodeType :=
  (reporting.handlers.resolve? kind).map Registration.type

/-- The entry for the choice that is made for a node. -/
def told (node : Node) (type : Option NodeType) : Note :=
  .entry (.dispatched node.kind type node.attributes)

/-- The mark of the handler of a type at a node. -/
def mark (node : Node) (type : NodeType) : Note :=
  .entry (.logged (reporting.marking.mark node.kind node.attributes type))

/-- A note that stands by itself. -/
inductive Single : Note → Prop
  | other
      {value : Value}
      (isOther : reporting.others value) :
      Single (.entry (.logged value))
  /-- The fallback is called. -/
  | fallback (node : Node) (context : Context) :
      Single (.entered none node context)
  /-- The listener gives up. -/
  | refused
      {node : Node}
      (rejects : reporting.rejected = some node.kind) :
      Single (told node (reporting.type? node.kind))
  | unhandled
      {node : Node}
      (isUnhandled : reporting.type? node.kind = none) :
      Single (told node none)

/-- Notes that stand together: one by itself, or all that begins the run of a handler. -/
inductive Block : List Note → Prop
  | single
      {note : Note}
      (isSingle : reporting.Single note) :
      Block [note]
  | handled
      {node : Node}
      {type : NodeType}
      (accepts : reporting.rejected ≠ some node.kind)
      (isHandled : reporting.type? node.kind = some type)
      (context : Context) :
      Block
        [told node (some type), .entered (some type) node context,
          reporting.mark node type]

/-- Notes in which every handler that is run begins with all that it should. -/
inductive Paired : List Note → Prop
  | nil : Paired []
  | block
      {block rest : List Note}
      (isBlock : reporting.Block block)
      (paired : Paired rest) :
      Paired (block ++ rest)

namespace Paired

variable
  {reporting : Reporting}
  {first second notes : List Note}

/-- A note that stands by itself may stand before others. -/
theorem single
    {note : Note}
    (isSingle : reporting.Single note)
    (paired : reporting.Paired notes) :
    reporting.Paired (note :: notes) :=
  .block (.single isSingle) paired

/-- Blocks may be put together. -/
theorem append
    (firstPaired : reporting.Paired first)
    (secondPaired : reporting.Paired second) :
    reporting.Paired (first ++ second) := by
  induction firstPaired with
  | nil =>
      exact secondPaired
  | block isBlock _ inductionHypothesis =>
      rw [List.append_assoc]
      exact .block isBlock inductionHypothesis

/-- Every note stands in a block. -/
theorem block_of_mem
    (paired : reporting.Paired notes)
    {before after : List Note}
    {here : Note}
    (split : notes = before ++ here :: after) :
    ∃ earlier opening closing later,
      reporting.Block (opening ++ here :: closing) ∧
        before = earlier ++ opening ∧
        after = closing ++ later := by
  induction paired generalizing before with
  | nil =>
      simp at split
  | @block block rest isBlock _ inductionHypothesis =>
      rcases List.append_eq_append_iff.mp split with
        ⟨between, rfl, isRest⟩ | ⟨between, rfl, isAfter⟩
      · obtain ⟨earlier, opening, closing, later, isHere, rfl, rfl⟩ :=
          inductionHypothesis isRest
        refine ⟨block ++ earlier, opening, closing, later, isHere, ?_, rfl⟩
        rw [List.append_assoc]
      · cases between with
        | nil =>
            -- The block ends here, so that the note is the first of the rest.
            have isRest : rest = [] ++ here :: after := isAfter.symm
            obtain ⟨earlier, opening, closing, later, isHere, isNil, rfl⟩ :=
              inductionHypothesis isRest
            obtain ⟨rfl, rfl⟩ := List.append_eq_nil_iff.mp isNil.symm
            exact ⟨before, [], closing, later, isHere,
              (List.append_nil before).symm, rfl⟩
        | cons head closing =>
            obtain ⟨rfl, rfl⟩ := List.cons.inj isAfter
            exact ⟨[], before, closing, rest, isBlock, rfl, rfl⟩

end Paired

/-- A note of a block stands by itself, or it has its place at the start of a run. -/
theorem Block.single_or_handled
    {reporting : Reporting}
    {opening closing : List Note}
    {here : Note}
    (isBlock : reporting.Block (opening ++ here :: closing)) :
    (reporting.Single here ∧ opening = [] ∧ closing = []) ∨
      ∃ node type context,
        reporting.rejected ≠ some node.kind ∧
          reporting.type? node.kind = some type ∧
          (here = told node (some type) ∧
              opening = [] ∧
              closing =
                [.entered (some type) node context,
                  reporting.mark node type] ∨
            here = .entered (some type) node context ∧
              opening = [told node (some type)] ∧
              closing = [reporting.mark node type] ∨
            here = reporting.mark node type ∧
              opening =
                [told node (some type),
                  .entered (some type) node context] ∧
              closing = []) := by
  generalize isWhole : opening ++ here :: closing = block at isBlock
  cases isBlock with
  | single isSingle =>
      cases opening with
      | nil =>
          obtain ⟨rfl, rfl⟩ := List.cons.inj isWhole
          exact .inl ⟨isSingle, rfl, rfl⟩
      | cons head rest =>
          simp at isWhole
  | handled accepts isHandled context =>
      refine .inr ⟨_, _, context, accepts, isHandled, ?_⟩
      rcases opening with _ | ⟨first, _ | ⟨second, _ | ⟨third, rest⟩⟩⟩
      · obtain ⟨rfl, rfl⟩ := List.cons.inj isWhole
        exact .inl ⟨rfl, rfl, rfl⟩
      · cases isWhole
        exact .inr (.inl ⟨rfl, rfl, rfl⟩)
      · cases isWhole
        exact .inr (.inr ⟨rfl, rfl, rfl⟩)
      · simp at isWhole

namespace Paired

variable
  {reporting : Reporting}
  {notes before after : List Note}
  {type : NodeType}

/-- Where a handler is run it is told before, and makes its mark after. -/
theorem around_entered
    (paired : reporting.Paired notes)
    {node : Node}
    {context : Context}
    (split : notes = before ++ .entered (some type) node context :: after) :
    reporting.rejected ≠ some node.kind ∧
      reporting.type? node.kind = some type ∧
      ∃ earlier later,
        before = earlier ++ [told node (some type)] ∧
          after = reporting.mark node type :: later := by
  obtain ⟨earlier, opening, closing, later, isBlock, rfl, rfl⟩ :=
    paired.block_of_mem split
  rcases isBlock.single_or_handled with
    ⟨isSingle, -, -⟩ |
      ⟨_, _, _, accepts, isHandled,
        ⟨same, -, -⟩ | ⟨same, rfl, rfl⟩ | ⟨same, -, -⟩⟩
  · cases isSingle
  · cases same
  · cases same
    exact ⟨accepts, isHandled, earlier, later, rfl, rfl⟩
  · cases same

/-- Where a mark is made its handler is run, which has been told before. -/
theorem before_mark
    (paired : reporting.Paired notes)
    {kind : NodeKind}
    {attributes : List Attribute}
    (isMark :
      ¬ reporting.others (reporting.marking.mark kind attributes type))
    (split :
      notes =
        before ++
          .entry (.logged (reporting.marking.mark kind attributes type)) ::
            after) :
    reporting.rejected ≠ some kind ∧
      ∃ earlier node context,
        before =
          earlier ++
            [.entry (.dispatched kind (some type) attributes),
              .entered (some type) node context] := by
  obtain ⟨earlier, opening, closing, later, isBlock, rfl, rfl⟩ :=
    paired.block_of_mem split
  rcases isBlock.single_or_handled with
    ⟨isSingle, -, -⟩ |
      ⟨node, _, context, accepts, isHandled,
        ⟨same, -, -⟩ | ⟨same, -, -⟩ | ⟨same, rfl, rfl⟩⟩
  · cases isSingle with
    | other isOther =>
        exact (isMark isOther).elim
  · cases same
  · cases same
  · obtain ⟨rfl, rfl, rfl⟩ :=
      reporting.marking.mark_injective
        (LogEntry.logged.inj (Note.entry.inj same))
    exact ⟨accepts, earlier, node, context, rfl⟩

/-- Where the listener is told of a handler it is run and makes its mark next. -/
theorem after_told
    (paired : reporting.Paired notes)
    {kind : NodeKind}
    {attributes : List Attribute}
    {type? : Option NodeType}
    (split :
      notes =
        before ++ .entry (.dispatched kind type? attributes) :: after) :
    type? = reporting.type? kind ∧
      ∀ type,
        type? = some type →
        reporting.rejected ≠ some kind →
        ∃ node context later,
          after =
            .entered (some type) node context ::
              .entry
                (.logged (reporting.marking.mark kind attributes type)) ::
              later := by
  obtain ⟨earlier, opening, closing, later, isBlock, rfl, rfl⟩ :=
    paired.block_of_mem split
  rcases isBlock.single_or_handled with
    ⟨isSingle, -, rfl⟩ |
      ⟨node, handledType, context, accepts, isHandled,
        ⟨same, rfl, rfl⟩ | ⟨same, -, -⟩ | ⟨same, -, -⟩⟩
  · cases isSingle with
    | refused rejects =>
        exact ⟨rfl, fun _ _ accepts => (accepts rejects).elim⟩
    | unhandled isUnhandled =>
        exact ⟨isUnhandled.symm, fun _ isSome _ => nomatch isSome⟩
  · cases same
    refine ⟨isHandled.symm, ?_⟩
    rintro type ⟨rfl⟩ -
    exact ⟨node, context, later, rfl⟩
  · cases same
  · cases same

end Paired

end Reporting

namespace Run

variable
  (handlers : HandlerMap Handler)
  {Outcome Next : Type}

/-- The notes of a run whose questions a handler map answers. -/
def notes (run : Run Outcome) : List Note :=
  Event.notes (run.trace handlers).events

/-- Collecting results leaves the notes as they are. -/
@[simp] theorem notes_collect
    (run : Run Outcome) :
    run.collect.notes handlers = run.notes handlers := by
  rw [notes, trace_collect, Event.notes_filter_isNote, notes]

/-- Runs that collect the same make the same notes. -/
theorem notes_eq_of_collect
    {run other : Run Outcome}
    (same : run.collect = other.collect) :
    run.notes handlers = other.notes handlers := by
  rw [← notes_collect, same, notes_collect]

/-- So does collecting them to finish with them. -/
@[simp] theorem notes_gather
    (run : Run Unit) :
    run.gather.notes handlers = run.notes handlers := by
  rw [gather_eq_collect, notes, trace_bind, trace_collect, notes]
  rcases run.trace handlers with ⟨events, outcome | failure | _⟩ <;>
    simp [Trace.andThen, Ending.map, trace]

/-- What goes on with an outcome adds to the notes, if there is one. -/
theorem notes_bind
    (run : Run Outcome)
    (next : Outcome → Run Next) :
    (run.bind next).notes handlers = run.notes handlers ∨
      ∃ outcome,
        (run.bind next).notes handlers =
          run.notes handlers ++ (next outcome).notes handlers := by
  unfold notes
  rw [trace_bind]
  rcases run.trace handlers with ⟨events, outcome | failure | _⟩
  · exact .inr ⟨outcome, List.filterMap_append⟩
  · exact .inl rfl
  · exact .inl rfl

end Run

namespace Reporting

variable (reporting : Reporting)

/-- The notes of a run are paired. -/
def Covers {Outcome : Type} (run : Run Outcome) : Prop :=
  reporting.Paired (run.notes reporting.handlers)

/-- What goes on in pairs after pairs does so as a whole. -/
theorem Covers.bind
    {reporting : Reporting}
    {Outcome Next : Type}
    {run : Run Outcome}
    {next : Outcome → Run Next}
    (covers : reporting.Covers run)
    (onward : ∀ outcome, reporting.Covers (next outcome)) :
    reporting.Covers (run.bind next) := by
  unfold Covers
  rcases run.notes_bind reporting.handlers next with
    sameNotes | ⟨outcome, more⟩
  · rw [sameNotes]
    exact covers
  · rw [more]
    exact covers.append (onward outcome)

/-- Runs of which the first makes paired notes. The second does not matter. -/
def pairing : Congruence where
  relates run _ := reporting.Covers run
  logs := reporting.others
  catches := True
  done _ := .nil
  failed _ := .nil
  exhausted := .nil
  log isOther := .single (.other isOther) .nil
  entered node context := .single (.fallback node context) .nil
  delivering _ := .nil
  bind := Covers.bind
  gather {run other} covers := by
    rw [Run.gather_eq_collect]
    apply Covers.bind
    · unfold Covers
      rw [Run.notes_collect]
      exact covers
    · exact fun _ => .nil
  attempt {Outcome run other} _ covers := by
    unfold Covers Run.notes
    rw [Run.trace_attempt]
    exact covers

/-- A walker whose listener gives up at one kind, and whose handlers make marks. -/
structure IsOf (walker : Walker) : Prop where
  listener_eq : walker.settings.listener = .logging reporting.rejected
  handlers_mark :
    ∀ entry ∈ reporting.handlers,
      entry.2.BeginsWithMark reporting.marking reporting.others entry.1
  fallback_logs :
    ∀ handler,
      walker.fallback = some handler →
      handler.Throughout (Action.LogsOnly reporting.others)

variable {reporting}

/-- Actions that log no marks may follow a mark. -/
theorem suits_pairing
    {handler : Handler}
    (logs : handler.Throughout (Action.LogsOnly reporting.others)) :
    handler.Throughout (Action.SuitsTo reporting.pairing) := by
  apply logs.mono
  intro action logsOnly
  cases action with
  | log =>
      exact logsOnly
  | _ =>
      trivial

end Reporting

/-- A handler whose first action logs a value does so, and runs the others after that. -/
theorem Handler.body_of_log
    {handler : Handler}
    {value : Expression}
    {rest : List Action}
    (begins : handler.actions = .log value :: rest)
    (services : Services)
    {node : Node}
    {context : Context}
    {logged : Value}
    (evaluates : value.eval (.start node context) = .ok logged) :
    handler.body services node context =
      (Run.noting (.entry (.logged logged))).bind fun _ =>
        ({ handler with actions := rest } : Handler).body services node
          context := by
  simp only [body, begins, Action.runAll, Action.run, evaluates]
  rfl

/-- An entry for the choice of a handler, and then what follows if it is accepted. -/
theorem Walker.notify_bind
    {settings : Settings}
    {rejected : Option NodeKind}
    (listener : settings.listener = .logging rejected)
    (node : Node)
    (type : Option NodeType)
    {Next : Type}
    (next : Unit → Run Next) :
    (notify settings node type).bind next =
      .note (.entry (.dispatched node.kind type node.attributes)) fun _ =>
        if rejected = some node.kind then
          .failed (.handler ("listener rejects " ++ node.kind.name))
        else
          next () := by
  simp only [notify, listener, Run.noting, Run.bind_eq, Run.bind]
  congr 1
  funext _
  split
  · rfl
  · rfl

namespace Reporting

variable
  {reporting : Reporting}
  {walker : Walker}
  {services others : Services}

/-- A handler that begins with its mark makes that mark, and then paired notes. -/
theorem notes_given
    (related : services.Related reporting.pairing others)
    {type : NodeType}
    {handler : Handler}
    (marks :
      handler.BeginsWithMark reporting.marking reporting.others type)
    (node : Node)
    (context : Context) :
    ∃ rest,
      (handler.given services node context).notes reporting.handlers =
          reporting.mark node type :: rest ∧
        reporting.Paired rest := by
  obtain ⟨rest, begins, logs⟩ := marks
  have body :=
    handler.body_of_log begins services
      (reporting.marking.eval_expression type node context)
  have sameNotes :=
    Run.notes_eq_of_collect reporting.handlers
      (handler.collect_given services node context)
  have suits :
      ({ handler with actions := rest } : Handler).Throughout
        (Action.SuitsTo reporting.pairing) :=
    suits_pairing logs
  exact
    ⟨_, sameNotes.trans (congrArg _ body),
      Handler.body_relates related suits node context⟩

/-- The choice of a handler for a node is told, and then come the run and its notes. -/
theorem covers_visitResolved
    (isOf : reporting.IsOf walker)
    (related : services.Related reporting.pairing others)
    (node : Node)
    (context : Context) :
    reporting.Covers
      (walker.visitResolved services node context
        (reporting.handlers.resolve? node.kind)) := by
  unfold Covers Walker.visitResolved
  rw [Walker.notify_bind isOf.listener_eq]
  by_cases rejects : reporting.rejected = some node.kind
  · simp only [if_pos rejects]
    exact .single (.refused rejects) .nil
  · simp only [if_neg rejects]
    cases found : reporting.handlers.resolve? node.kind with
    | none =>
        have isUnhandled : reporting.type? node.kind = none :=
          congrArg (Option.map Registration.type) found
        have generic :
            reporting.Covers
              ((walker.callGeneric services node context).bind id) :=
          Walker.callGeneric_relates related rfl rfl
            (fun handler given =>
              suits_pairing (isOf.fallback_logs handler given)) node
            context
        exact .single (.unhandled isUnhandled) generic
    | some registration =>
        have isHandled :
            reporting.type? node.kind = some registration.type :=
          congrArg (Option.map Registration.type) found
        have isBound :
            registration.handlerFor node = .ok registration.handler :=
          if_pos (HandlerMap.includes_of_resolve? found)
        obtain ⟨rest, givesMark, paired⟩ :=
          notes_given related
            (isOf.handlers_mark _ (HandlerMap.mem_of_resolve? found)) node
            context
        simp only [isBound]
        change reporting.Paired
          (told node (some registration.type) ::
            .entered (some registration.type) node context ::
            (registration.handler.given services node context).notes
              reporting.handlers)
        rw [givesMark]
        exact .block (.handled rejects isHandled context) paired

/-- All that a walker gives makes paired notes if its handlers make marks. -/
theorem couples_pairing
    (isOf : reporting.IsOf walker) :
    walker.Couples reporting.pairing walker where
  mode_eq := rfl
  root _ := rfl
  descend _ _ _ := rfl
  generic related :=
    Walker.callGeneric_relates related rfl rfl fun handler given =>
      suits_pairing (isOf.fallback_logs handler given)
  visitNode {services others} related node context := by
    apply Walker.visitNode_relates rfl
    rw [Walker.callNode_bind_id]
    exact covers_visitResolved isOf related node context

end Reporting

/-- Where the listener gives up at a node, he is told of it, and then nothing is run. -/
theorem Walker.trace_visitNode_of_rejected
    {walker : Walker}
    {node : Node}
    (rejects : walker.settings.listener = .logging (some node.kind))
    (handlers : HandlerMap Handler)
    (services : Services)
    (context : Context) :
    (walker.visitNode services node context).trace handlers =
      { events :=
          [.noted
            (.entry
              (.dispatched node.kind
                ((handlers.resolve? node.kind).map Registration.type)
                node.attributes))]
        ending :=
          .failed
            (.handler ("listener rejects " ++ node.kind.name)) } := by
  simp only [visitNode, callNode_bind_id]
  unfold visitResolved
  simp only [notify_bind rejects, if_pos]
  cases walker.mode with
  | visitor =>
      rfl
  | transformer =>
      rfl

/-- The listener's entries and the marks in a log belong to each other, one by one. -/
structure Reporting.Exact
    (reporting : Reporting)
    (log : List LogEntry) : Prop where
  /--
  Right before every mark stands the entry for that handler, of a node of that kind with
  those attributes, which the listener accepts.
  -/
  before_mark :
    ∀ {before after : List LogEntry} {kind : NodeKind}
      {attributes : List Attribute} {type : NodeType},
      ¬ reporting.others (reporting.marking.mark kind attributes type) →
      log =
        before ++
          .logged (reporting.marking.mark kind attributes type) ::
            after →
      reporting.rejected ≠ some kind ∧
        ∃ earlier,
          before = earlier ++ [.dispatched kind (some type) attributes]
  /--
  Every entry of the listener is for the handler of the node's kind. If there is one,
  and the listener accepts it, the mark of that handler comes right after it.
  -/
  after_dispatched :
    ∀ {before after : List LogEntry} {kind : NodeKind}
      {type? : Option NodeType} {attributes : List Attribute},
      log = before ++ .dispatched kind type? attributes :: after →
      type? = reporting.type? kind ∧
        ∀ type,
          type? = some type →
          reporting.rejected ≠ some kind →
          ∃ later,
            after =
              .logged (reporting.marking.mark kind attributes type) ::
                later

/-- The log of paired notes is exact. -/
theorem Reporting.Paired.exact
    {reporting : Reporting}
    {notes : List Note}
    (paired : reporting.Paired notes) :
    reporting.Exact (notes.filterMap Note.entry?) where
  before_mark isMark split := by
    obtain ⟨earlier, later, isSplit, rfl, -⟩ :=
      Note.exists_of_filterMap_entry? split
    obtain ⟨accepts, first, node, context, rfl⟩ :=
      paired.before_mark isMark isSplit
    exact ⟨accepts, first.filterMap Note.entry?, List.filterMap_append⟩
  after_dispatched split := by
    obtain ⟨earlier, later, isSplit, -, rfl⟩ :=
      Note.exists_of_filterMap_entry? split
    obtain ⟨isChoice, isNext⟩ := paired.after_told isSplit
    refine ⟨isChoice, ?_⟩
    intro type isSome accepts
    obtain ⟨node, context, last, rfl⟩ := isNext type isSome accepts
    exact ⟨last.filterMap Note.entry?, rfl⟩

namespace Session

variable {handlers : HandlerMap Handler}

/-- A session is for its handlers after any steps. -/
theorem IsFor.after
    {session : Session}
    {walker : Walker}
    (isFor : session.IsFor walker handlers)
    (bound : Nat)
    (steps : List Step) :
    (session.after bound steps).IsFor walker handlers := by
  induction steps generalizing session with
  | nil =>
      exact isFor
  | cons first later inductionHypothesis =>
      exact inductionHypothesis (isFor.step bound first)

/-- The log of a complete run is what is told in its notes. -/
theorem log_complete
    {session : Session}
    (standsFor : session.table.StandsFor handlers)
    {Outcome : Type}
    (reply : Outcome → Reply)
    (run : Run Outcome) :
    (session.complete reply run).1.log =
      (run.notes handlers).filterMap Note.entry? := by
  obtain ⟨sameEvents, -⟩ := run.complete_eq_trace standsFor
  simp only [complete, History.log, sameEvents, Event.log_eq_notes,
    Run.notes]

/-- Every step that is no iterator's makes an exact log. -/
theorem exact_step
    {reporting : Reporting}
    {walker : Walker}
    (isOf : reporting.IsOf walker)
    {session : Session}
    (isFor : session.IsFor walker reporting.handlers)
    (bound : Nat)
    {step : Step}
    (complete : step.iterator? = none) :
    reporting.Exact (session.step bound step).1.log := by
  apply step_of_couples (fun answer _ => reporting.Exact answer.log)
    (Reporting.couples_pairing isOf) isFor isFor bound complete
  · exact fun _ => Reporting.Paired.nil.exact
  · intro Outcome reply run _ covers
    rw [log_complete isFor.table]
    exact covers.exact

/--
Listeners are told exactly what is done, and nothing else changes with them. With any
listener that never gives up, with the debugging aid and with nobody, all steps have the
same answers but for what was made for the listener; and the debugging aid writes its
lines where a listener would make his entries, one for one. If all handlers begin with
marks, complete runs make exact logs, and whenever a handler is run in a traversal its
entry has just been made and its mark comes next. And where a listener gives up at a
node, nothing of that node is run.
-/
theorem listeners_are_told_exactly
    (walker : Walker)
    (bound : Nat) :
    let answers
        (handlers : HandlerMap Handler)
        (options : Options)
        (steps : List Step) :=
      (create (walker.withListener options.listener) handlers).answers bound
        steps
    (∀ (handlers : HandlerMap Handler) (options others : Options)
        (steps : List Step),
      options.onDispatch.NeverGivesUp →
      others.onDispatch.NeverGivesUp →
      (answers handlers options steps).map Answer.withoutReports =
        (answers handlers others steps).map Answer.withoutReports) ∧
    (∀ (handlers : HandlerMap Handler) (options : Options)
        (steps : List Step),
      options.debug = true →
      options.onDispatch = .silent →
      answers handlers options steps =
        (answers handlers { options with onDispatch := .logging none }
          steps).map (Answer.retell Listener.debugging.retell)) ∧
    (∀ reporting : Reporting,
      reporting.IsOf walker →
      (∀ (earlier : List Step) (step : Step),
        step.iterator? = none →
        let session := (create walker reporting.handlers).after bound earlier
        reporting.Exact (session.step bound step).1.log) ∧
      ∀ (tree : Node) (keys : Fields Value) (before after : List Note)
          (type : NodeType) (node : Node) (context : Context),
        ((walker.services bound).restart tree keys).notes
            reporting.handlers =
          before ++ .entered (some type) node context :: after →
        reporting.rejected ≠ some node.kind ∧
          reporting.type? node.kind = some type ∧
          ∃ earlier later,
            before = earlier ++ [Reporting.told node (some type)] ∧
              after = reporting.mark node type :: later) ∧
    (∀ (handlers : HandlerMap Handler) (services : Services) (node : Node)
        (context : Context),
      walker.settings.listener = .logging (some node.kind) →
      (walker.visitNode services node context).trace handlers =
        { events :=
            [.noted
              (.entry
                (.dispatched node.kind
                  ((handlers.resolve? node.kind).map Registration.type)
                  node.attributes))]
          ending :=
            .failed (.handler ("listener rejects " ++ node.kind.name)) }) := by
  intro answers
  have retold :
      ∀ (handlers : HandlerMap Handler) (options : Options)
        (steps : List Step),
        options.onDispatch.NeverGivesUp →
        (answers handlers options steps).map Answer.withoutReports =
          ((create (walker.withListener (.logging none)) handlers).answers
            bound steps).map Answer.withoutReports := by
    intro handlers options steps neverGivesUp
    simp only [answers]
    rw [answers_withListener walker handlers
        (Options.listener_neverGivesUp neverGivesUp),
      List.map_map]
    congr 1
    funext answer
    exact answer.withoutReports_retell options.listener
  refine ⟨?_, ?_, ?_, ?_⟩
  · intro handlers options others steps neverGivesUp othersNeverGiveUp
    rw [retold handlers options steps neverGivesUp,
      retold handlers others steps othersNeverGiveUp]
  · intro handlers options steps debug nobody
    have isDebugging : options.listener = .debugging := by
      simp only [Options.listener, nobody, debug]
      rfl
    have neverGivesUp : Listener.debugging.NeverGivesUp := trivial
    simp only [answers, isDebugging]
    exact answers_withListener walker handlers neverGivesUp bound steps
  · intro reporting isOf
    refine ⟨?_, ?_⟩
    · intro earlier step complete session
      have isFor : session.IsFor walker reporting.handlers :=
        (IsFor.create walker reporting.handlers).after bound earlier
      exact exact_step isOf isFor bound complete
    · intro tree keys before after type node context split
      have related :=
        (Reporting.couples_pairing isOf).related_services bound
      have covers : reporting.Covers _ := related.restart tree keys
      exact covers.around_entered split
  · intro handlers services node context rejects
    exact Walker.trace_visitNode_of_rejected rejects handlers services
      context

/--
Words and operations make their marks, and a listener gives up at phrases. Operations
visit two children, and log their own kind when that fails.
-/
def rejectedPhrases : Reporting where
  handlers :=
    [(.exactly (.term .word),
        { eager := true
          actions :=
            [.log (Marking.plain.expression (.exactly (.term .word))),
              .deliver .node] }),
      (.anyOf .operation,
        { eager := false
          actions :=
            [.log (Marking.plain.expression (.anyOf .operation)),
              .rescue
                [.child (.ofNat 0) (.ofNat 0) unchanged,
                  .child (.ofNat 1) (.ofNat 1) unchanged]
                [.log .kind]] })]
  rejected := some (.term .phrase)
  marking := .plain
  others value := ∃ name, value = .text name

/-- A visitor with that listener. -/
def tellingVisitor : Walker where
  mode := .visitor
  settings :=
    { trackParents := false
      trackNewParents := false
      trackPaths := false
      maxDepth := 2
      maxDepth_pos := Nat.two_pos
      listener := .logging rejectedPhrases.rejected }
  fallback := none

/-- Options by which choices are written out if nobody listens. -/
def debuggingOptions : Options where
  trackParents := false
  trackNewParents := false
  trackPaths := false
  maxDepth := none
  debug := true
  onDispatch := .silent

/--
A traversal that is retold, and its exact log with a listener who gives up, and is caught.
-/
theorem listeners_are_told_exactly_rejectedPhrases :
    let steps := [Step.traverse
      (Query.and [Query.word "a", Query.phrase "b"]) []]
    let answers (listener : Listener) :=
      (create (tellingVisitor.withListener listener)
        rejectedPhrases.handlers).answers 3 steps
    let log :=
      ((create tellingVisitor rejectedPhrases.handlers).step 3
        (.traverse (Query.and [Query.word "a", Query.phrase "b"])
          [])).1.log
    (answers debuggingOptions.listener).map Answer.withoutReports =
        (answers Listener.silent).map Answer.withoutReports ∧
      answers debuggingOptions.listener =
        (answers (.logging none)).map
          (Answer.retell Listener.debugging.retell) ∧
      rejectedPhrases.IsOf tellingVisitor ∧
      rejectedPhrases.Exact log ∧
      log =
        [.dispatched (.operation .and) (some (.anyOf .operation)) [],
          .logged
            (Marking.plain.mark (.operation .and) []
              (.anyOf .operation)),
          .dispatched (.term .word) (some (.exactly (.term .word)))
            [.text "a"],
          .logged
            (Marking.plain.mark (.term .word) [.text "a"]
              (.exactly (.term .word))),
          .dispatched (.term .phrase) none [.text "b"],
          .logged (.text "andOperation")] := by
  intro steps answers log
  have logsKind :
      (Action.log .kind).LogsOnly fun value =>
        ∃ name, value = .text name := by
    rintro scope logged ⟨rfl⟩
    exact ⟨scope.node.kind.name, rfl⟩
  have isOf : rejectedPhrases.IsOf tellingVisitor :=
    { listener_eq := rfl
      handlers_mark := by
        intro entry member
        rcases List.mem_pair.mp member with rfl | rfl
        · exact ⟨_, rfl, trivial, trivial⟩
        · have visits := And.intro trivial (And.intro trivial trivial)
          have rescues := And.intro trivial
            (And.intro visits (And.intro logsKind trivial))
          exact ⟨_, rfl, rescues, trivial⟩
      fallback_logs := fun _ given => nomatch given }
  obtain ⟨sameUntold, debugged, told, _⟩ :=
    listeners_are_told_exactly tellingVisitor 3
  have isUntold :=
    sameUntold rejectedPhrases.handlers debuggingOptions
      { debuggingOptions with debug := false } steps trivial trivial
  have isRetold :=
    debugged rejectedPhrases.handlers debuggingOptions steps rfl rfl
  exact
    ⟨isUntold, isRetold, isOf,
      (told rejectedPhrases isOf).1 [] (.traverse _ []) rfl, rfl⟩

end Session

end QueryWalk
