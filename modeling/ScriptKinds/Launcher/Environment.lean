namespace ScriptKinds.Launcher

/-- The variables of a process, by name and value. -/
abbrev Environment := List (String × String)

namespace Environment

/-- A name and its value, with an equals sign between them. -/
def entry (name value : List Char) : List Char :=
  name ++ '=' :: value

/-- The value of a variable: what follows its name and an equals sign in the
first entry that starts so. -/
def get? (environment : Environment) (wanted : String) : Option String :=
  environment.findSome? fun (name, value) =>
    (List.isPrefixOf? (entry wanted.toList []) (entry name.toList value.toList)).map String.ofList

theorem isPrefixOf?_cons (c d : Char) (wanted name : List Char) :
    List.isPrefixOf? (c :: wanted) (d :: name) =
      if c = d then List.isPrefixOf? wanted name else none := by
  change (if c == d then _ else _) = _
  simp only [beq_iff_eq]

theorem isPrefixOf?_nil (name : List Char) : List.isPrefixOf? [] name = some name := rfl

theorem isPrefixOf?_entry {wanted name : List Char} (hw : '=' ∉ wanted) (hn : '=' ∉ name)
    (value : List Char) :
    List.isPrefixOf? (entry wanted []) (entry name value) =
      if wanted = name then some value else none := by
  induction wanted generalizing name with
  | nil =>
      cases name with
      | nil => simp [entry, isPrefixOf?_cons, isPrefixOf?_nil]
      | cons c name =>
          have hc : ¬ '=' = c := fun h => hn (List.mem_cons.2 (.inl h))
          simp [entry, isPrefixOf?_cons, hc]
  | cons w wanted ih =>
      have hw' : '=' ∉ wanted := fun h => hw (List.mem_cons_of_mem _ h)
      have hc : ¬ w = '=' := fun h => hw (List.mem_cons.2 (.inl h.symm))
      cases name with
      | nil => simp [entry, isPrefixOf?_cons, hc]
      | cons c name =>
          have hn' : '=' ∉ name := fun h => hn (List.mem_cons_of_mem _ h)
          have ih := ih hw' hn'
          simp only [entry, List.cons_append] at ih ⊢
          by_cases h : w = c
          · simp [isPrefixOf?_cons, h, ih]
          · simp [isPrefixOf?_cons, h]

theorem get?_eq_lookup {environment : Environment} {wanted : String}
    (hw : '=' ∉ wanted.toList) (hn : ∀ e ∈ environment, '=' ∉ e.1.toList) :
    environment.get? wanted = environment.lookup wanted := by
  induction environment with
  | nil => rfl
  | cons e environment ih =>
      obtain ⟨name, value⟩ := e
      have hname : '=' ∉ name.toList := hn (name, value) (by simp)
      have ih := ih fun e h => hn e (List.mem_cons_of_mem _ h)
      rw [get?] at ih ⊢
      rw [List.findSome?_cons, List.lookup_cons]
      simp only [isPrefixOf?_entry hw hname]
      by_cases h : wanted = name
      · simp [h]
      · have h' : ¬ wanted.toList = name.toList := fun t => h (String.toList_injective t)
        have hb : (wanted == name) = false := beq_false_of_ne h
        simpa [h', hb] using ih

end Environment

end ScriptKinds.Launcher
