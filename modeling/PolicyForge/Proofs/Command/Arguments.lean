import Mathlib.Data.List.TakeDrop
import PolicyForge.Command.Invocation

namespace PolicyForge.Command

/-- An option that is written out is known by what stands behind its two dashes. -/
theorem ofText_named {named : String} (hne : named ≠ "") :
    Argument.ofText ("--" ++ named) = .named named.toList := by
  obtain ⟨c, rest, hchars⟩ : ∃ c rest, named.toList = c :: rest := by
    apply List.exists_cons_of_ne_nil
    simpa using hne
  have hdashes : ("--" ++ named).toList = '-' :: '-' :: c :: rest := by
    rw [String.toList_append, hchars]
    rfl
  rw [Argument.ofText, hdashes, hchars]
  rfl

section

variable {name : String} (hname : '=' ∉ name.toList) (value : String)

include hname

/-- A value may hold anything, since the first equals sign is the one in front of it. -/
theorem splitNamed_value : splitNamed (name ++ "=" ++ value).toList = (name, some value) := by
  have hpass : ∀ c ∈ name.toList, (c != '=') = true := by
    intro c hc
    rw [bne_iff_ne]
    rintro rfl
    exact hname hc
  have hchars : (name ++ "=" ++ value).toList = name.toList ++ '=' :: value.toList := by simp
  rw [splitNamed, hchars, List.span_eq_takeWhile_dropWhile,
    List.takeWhile_append_of_pos hpass, List.dropWhile_append_of_pos hpass]
  simp

/-- An option with its value behind an equals sign is read as it is written, whatever the value. -/
theorem readArguments_value {switches : List Switch} {switch : Switch}
    (hfind : switches.find? (·.name == name) = some switch) (htakes : switch.takesValue = true)
    (leading : Bool) (rest : List String) :
    readArguments switches leading (("--" ++ (name ++ "=" ++ value)) :: rest) =
      (readArguments switches leading rest).map (·.withOption name value) := by
  have hne : name ++ "=" ++ value ≠ "" := by
    intro hempty
    have hchars := congrArg String.toList hempty
    simp at hchars
  rw [readArguments, ofText_named hne]
  simp only [splitNamed_value hname, hfind, htakes]

end

/-- The arguments of `generate` with every value behind an equals sign. -/
def written (input output : String) (service : Option String) : List String :=
  ("--input=" ++ input) :: ("--output=" ++ output) :: (service.map ("--service=" ++ ·)).toList

/-- The options in their written order are read back as the values they were given. -/
theorem readArguments_written (input output : String) (service : Option String) :
    readArguments generateSwitches false (written input output service) =
      some { options := ("input", input) :: ("output", output) ::
        (service.map ("service", ·)).toList } := by
  have hoption : ∀ name value : String,
      "--" ++ name ++ "=" ++ value = "--" ++ (name ++ "=" ++ value) := by
    simp only [String.append_assoc, implies_true]
  have hservice : readArguments generateSwitches false (service.map ("--service=" ++ ·)).toList =
      some { options := (service.map ("service", ·)).toList } := by
    cases service with
    | none => rfl
    | some service =>
      change readArguments generateSwitches false ["--" ++ "service" ++ "=" ++ service] = _
      rw [hoption, readArguments_value (by decide) service rfl rfl]
      rfl
  change readArguments generateSwitches false
    (("--" ++ "input" ++ "=" ++ input) :: ("--" ++ "output" ++ "=" ++ output) :: _) = _
  rw [hoption, hoption, readArguments_value (by decide) input rfl rfl,
    readArguments_value (by decide) output rfl rfl, hservice]
  rfl

/-- A request to generate is understood when its values stand behind equals signs, whatever they
are. A service that is named counts more than the one of the environment. -/
theorem ofArguments?_written {input output : String} (hinput : input ≠ "") (houtput : output ≠ "")
    (environment service : Option String) :
    Invocation.ofArguments? environment ("generate" :: written input output service) =
      some (.generate { input := input, output := output, service := service.or environment }) := by
  have hpath : ∀ {text : String}, text ≠ "" → path? text = some (.ofText text) :=
    fun hne => if_neg (by simpa using hne)
  have hrequest : generateRequest? environment (written input output service) =
      (path? input >>= fun input => path? output >>= fun output =>
        some { input, output, service := service.or environment }) := by
    rw [generateRequest?, readOnce, readArguments_written]
    cases service <;> rfl
  rw [hpath hinput, hpath houtput] at hrequest
  change (generateRequest? environment _ >>= fun request => some (Invocation.generate request)) = _
  rw [hrequest]
  rfl

end PolicyForge.Command
