import ScriptKinds.CommandLine.Report
import ScriptKinds.Proofs.Grammar.RegexLiteral
import ScriptKinds.Proofs.Grammar.SourceRanges
import ScriptKinds.Proofs.Grammar.Termination
import ScriptKinds.Proofs.Inference.Location
import ScriptKinds.Proofs.Scope.Declared
import ScriptKinds.Proofs.Source.Line

namespace ScriptKinds

namespace Spelled

variable {tokens : TokenStream} {first last : Nat} {leads kids : List Item} {node : Node}
  {span : Span} {bound : Target} {position : Nat}

section Starts

variable (hends : tokens.last.kind = .endOfInput)

include hends

/-- What begins where its target begins, begins with a token if the target binds
a name. -/
theorem starts_ahead_of_names (h : Spelled tokens first last (leads ++ .node (.target bound) :: kids))
    (hled : Node.LedByAhead span leads) (hnames : bound.names ≠ []) :
    tokens.Starts first last span.start := by
  cases bound with
  | name name => exact h.starts_ledByAhead hends hled
  | pattern elements nestedDefaults =>
      obtain ⟨token, rfl, hstart⟩ := hled
      rw [← hstart]
      cases h with
      | @ahead _ place _ _ hfirst hothers =>
          obtain ⟨entry, hentry⟩ := List.exists_mem_of_ne_nil elements fun hnil =>
            hnames (by rw [hnil]; rfl)
          have hparts : Spelled tokens place last
              ([.node (.target (.pattern elements nestedDefaults))] ++ kids) := hothers
          obtain ⟨later, hplace, hlast, hsize, -⟩ := hparts.left.starts_element hends hentry
          exact ⟨place, hfirst, by omega, by omega, rfl⟩

theorem starts_mark (h : Spelled tokens first last [.node node]) (hmark : position ∈ node.marks) :
    tokens.Starts first last position := by
  cases node with
  | expr outer =>
      cases outer with
      | function name? _ _ _ _ | classDef name? _ _ _ =>
          cases name? with
          | none => cases hmark
          | some name =>
              obtain rfl := List.mem_singleton.mp hmark
              exact h.starts_node hends fun _ hled => hled
      | update operator operand leading span =>
          cases operand <;> simp only [Node.marks, List.not_mem_nil, List.mem_singleton] at hmark
          rw [hmark]
          have hname := inside (.child List.mem_cons_self) h
          exact hname.starts_node hends fun _ hled => hled
      | assignment operator target given span =>
          cases target <;> simp only [Node.marks, List.not_mem_nil, List.mem_singleton] at hmark
          rw [hmark]
          have hname := inside (.child List.mem_cons_self) h
          exact hname.starts_node hends fun _ hled => hled
      | _ => cases hmark
  | stmt outer =>
      cases outer with
      | function | classDef | forEach =>
          obtain rfl := List.mem_singleton.mp hmark
          exact h.starts_node hends fun _ hled => hled
      | _ => cases hmark
  | parameter outer =>
      obtain ⟨name, hname, rfl⟩ := List.mem_map.mp hmark
      obtain ⟨_, _, hled, rfl, _, hkids⟩ := h.parts_of_node
      exact hkids.starts_ahead_of_names hends hled (List.ne_nil_of_mem hname)
  | declarator outer =>
      obtain ⟨name, hname, rfl⟩ := List.mem_map.mp hmark
      obtain ⟨_, _, hled, rfl, _, hkids⟩ := h.parts_of_node
      exact hkids.starts_ahead_of_names hends hled (List.ne_nil_of_mem hname)
  | binding outer =>
      obtain rfl := List.mem_singleton.mp hmark
      exact h.starts_node hends fun _ hled => hled
  | handler outer =>
      obtain rfl := List.mem_singleton.mp hmark
      exact h.starts_node hends fun _ hled => hled
  | property | target | element | member | block | clause => cases hmark

end Starts

end Spelled

theorem TokenStream.LaidOut.lt_finish {tokens : TokenStream} (h : tokens.LaidOut)
    {first last offset : Nat} (hstarts : tokens.Starts first last offset) :
    offset < tokens.finish := by
  obtain ⟨place, -, -, hplace, rfl⟩ := hstarts
  have hsolid := (h.solid place hplace).2
  have hfinish := h.stopBefore_le_finish hplace
  rw [stopBefore] at hfinish
  omega

/-- A lexical fault lies in the source, which has something to cut. -/
theorem Token.fault_of_ofSource {file source : String} {fault : Fault}
    (h : ofSource file source = .error fault) :
    source ≠ "" ∧ fault.position.offset ≤ source.utf8ByteSize := by
  rw [ofSource] at h
  split at h
  · cases h
  · rename_i pieces cause hcut
    cases h
    constructor
    · rintro rfl
      rw [String.toList_empty, Piece.cut] at hcut
      cases hcut
    · obtain ⟨behind, hbehind⟩ := Piece.join_cut_prefix .start source.toList
      rw [hcut] at hbehind
      rw [← Text.byteLength_toList, ← hbehind, Text.byteLength_append]
      exact Nat.le_add_right _ _

namespace Script

variable {file source : String} {tokens : List Token} {failure : Failure}

theorem fault_of_ofTokens (htokens : Token.ofSource file source = .ok tokens)
    (h : ofTokens file tokens = .error failure) :
    ∃ fault, failure = .fault fault ∧ fault.position.offset ≤ source.utf8ByteSize := by
  have hinput := laidOut_ofSource htokens
  obtain ⟨hbound, hbroken⟩ := failure_of_ofTokens hinput.toTerminated h
  cases failure with
  | exhausted => exact absurd rfl hbound
  | broken =>
      obtain ⟨token, hmem, hundivided⟩ := hbroken rfl
      exact absurd hundivided (not_undivided_of_ofSource htokens hmem)
  | fault fault =>
      have hlanding := landing_ofTokens htokens
      rw [ofTokens] at h
      dsimp only [Grammar.knot] at h hlanding
      split at h
      · cases h
      · rename_i hrun
        cases h
        rw [hrun] at hlanding
        obtain _ | hfault := hlanding
        rw [finish_ofSource htokens] at hfault
        exact ⟨fault, rfl, hfault fault rfl⟩

theorem ofSource_empty (file : String) : ∃ script, ofSource file "" = .ok script := by
  have htokens : Token.ofSource file "" = .ok [.endAt 0 false] := by
    rw [Token.ofSource, String.toList_empty, Piece.cut]
    rfl
  rw [ofSource, htokens]
  exact ⟨_, rfl⟩

/-- A failure to read a source is a fault in it, and the source is not empty. -/
theorem fault_of_ofSource (h : ofSource file source = .error failure) :
    ∃ fault, failure = .fault fault ∧ source ≠ "" ∧
      fault.position.offset ≤ source.utf8ByteSize := by
  have hne : source ≠ "" := by
    rintro rfl
    obtain ⟨script, hscript⟩ := ofSource_empty file
    rw [hscript] at h
    cases h
  rw [ofSource] at h
  split at h
  · rename_i tokens htokens
    obtain ⟨fault, rfl, hoffset⟩ := fault_of_ofTokens htokens h
    exact ⟨fault, rfl, hne, hoffset⟩
  · rename_i fault hfault
    cases h
    exact ⟨fault, rfl, Token.fault_of_ofSource hfault⟩

variable {script : Script}

theorem position_lt (h : ofSource file source = .ok script) :
    ∀ position ∈ (Node.block script.root).positions, position < source.utf8ByteSize := by
  intro position hposition
  obtain ⟨tokens, htokens, hscript⟩ := ofSource_ok h
  obtain ⟨last, hspelled⟩ := spelled hscript
  obtain ⟨node, hinside, hmark⟩ := Node.marked_of_mem_positions hposition
  have hinput := laidOut_ofSource htokens
  have hstarts := (hspelled.inside hinside).starts_mark hinput.ends hmark
  rw [← finish_ofSource htokens]
  exact hinput.laidOut.lt_finish hstarts

end Script

/-- A fault in a source that has a line for it. -/
structure Fault.Shown (source : String) (fault : Fault) : Prop where
  nonempty : source ≠ ""
  inside : fault.position.offset ≤ source.utf8ByteSize
  line : (Text.lineAt? source.toList fault.position.offset).isSome

/-- A symbol that is declared in a source, and reported with the number of a line. -/
structure Symbol.Shown (source : String) (symbol : Symbol) : Prop where
  inside : symbol.declaration < source.utf8ByteSize
  line : ∃ found, Text.lineAt? source.toList symbol.declaration = some found ∧
    CommandLine.textLine source symbol =
      toString found.number ++ ":" ++ symbol.name ++ " " ++ symbol.kind.name ++ " " ++
        symbol.kinds.text ++ "\n"

variable {source : String}

theorem isSome_lineAt?_source (hne : source ≠ "") {offset : Nat}
    (h : offset ≤ source.utf8ByteSize) : (Text.lineAt? source.toList offset).isSome := by
  refine Text.isSome_lineAt?.mpr ⟨fun hnil => hne (String.toList_eq_nil_iff.mp hnil), ?_⟩
  rwa [Text.byteLength_toList]

theorem Symbol.shown_of_inside {symbol : Symbol} (h : symbol.declaration < source.utf8ByteSize) :
    symbol.Shown source := by
  have hne : source ≠ "" := by
    rintro rfl
    exact Nat.not_lt_zero _ h
  obtain ⟨found, hfound⟩ :=
    Option.isSome_iff_exists.mp (isSome_lineAt?_source hne (Nat.le_of_lt h))
  refine ⟨h, found, hfound, ?_⟩
  rw [CommandLine.textLine, CommandLine.lineNumber?, hfound]
  rfl

/-- Whatever a source is, all places that its analysis reports can be shown: that
of a fault, or those of all symbols. -/
theorem Model.ofSource_shown (file source : String) :
    (∃ fault, ofSource file source = .error (.fault fault) ∧ fault.Shown source) ∨
      ∃ model, ofSource file source = .ok model ∧ ∀ symbol ∈ model.symbols, symbol.Shown source := by
  cases hscript : Script.ofSource file source with
  | error failure =>
      obtain ⟨fault, rfl, hne, hoffset⟩ := Script.fault_of_ofSource hscript
      refine .inl ⟨fault, ?_, hne, hoffset, isSome_lineAt?_source hne hoffset⟩
      rw [ofSource, hscript]
      rfl
  | ok script =>
      refine .inr ⟨ofScript script.root, ?_, fun symbol hsymbol => ?_⟩
      · rw [ofSource, hscript]
        rfl
      · obtain ⟨id, hid⟩ := Array.mem_iff_getElem?.mp hsymbol
        exact Symbol.shown_of_inside (declaredAt_ofScript (Script.position_lt hscript) id symbol hid)

end ScriptKinds
