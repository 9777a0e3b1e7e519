import Ciphr.LibShell
import Ciphr.ExportRender

/-!
A dotenv file, read by a shell: each quoted value is one word, and sourcing the file assigns the values
to their names and runs nothing.
-/

namespace Ciphr

theorem toList_shellSingleQuote (value : String) :
    (shellSingleQuote value).toList = Shell.quote value.toList := by
  unfold shellSingleQuote
  rw [String.toList_ofList]
  rfl

theorem EnvVarName.isName (name : EnvVarName) : Shell.isName name.text.toList = true := by
  obtain ⟨first, rest, hchars, hdigit, hall⟩ := name.chars
  rw [hchars] at hall ⊢
  unfold Shell.isName
  dsimp only
  rw [hdigit, Bool.not_false, Bool.true_and, List.all_eq_true]
  exact hall

variable {u : Unicode}

/-- The names and values that a dotenv file is to hold. -/
def dotenvItems (secrets : List (Exported u)) (names : List EnvVarName) :
    List (List Char × List Char) :=
  (secrets.zip names).map fun item => (item.2.text.toList, item.1.value.toList)

theorem toList_foldl_dotenv (items : List (Exported u × EnvVarName)) (out : String) :
    (items.foldl (fun out item => out ++ item.2.text ++ "=" ++ shellSingleQuote item.1.value ++ "\n")
        out).toList =
      out.toList ++ items.flatMap fun item =>
        Shell.assignment item.2.text.toList item.1.value.toList := by
  induction items generalizing out with
  | nil => rw [List.foldl_nil, List.flatMap_nil, List.append_nil]
  | cons item items ih =>
      rw [List.foldl_cons, ih, List.flatMap_cons]
      unfold Shell.assignment
      have hequals : "=".toList = ['='] := by decide
      have hfeed : "\n".toList = ['\n'] := by decide
      simp only [String.toList_append, toList_shellSingleQuote, hequals, hfeed, List.append_assoc,
        List.cons_append, List.nil_append]

/-- What a dotenv file says, as lines of assignments. -/
theorem toList_renderDotenv {secrets : List (Exported u)} {text : String}
    (h : renderDotenv secrets = .ok text) :
    ∃ names, assignNames secrets = .ok names ∧
      text.toList = (dotenvItems secrets names).flatMap fun item =>
        Shell.assignment item.1 item.2 := by
  obtain ⟨names, hnames, htext⟩ := Loop.bind_eq_ok h
  cases htext
  refine ⟨names, Loop.mapError_eq_ok hnames, ?_⟩
  rw [toList_foldl_dotenv]
  unfold dotenvItems
  rw [List.flatMap_map]
  rfl

theorem source_renderDotenv {secrets : List (Exported u)} {text : String}
    (h : renderDotenv secrets = .ok text) (hnul : ∀ secret ∈ secrets, '\x00' ∉ secret.value.toList) :
    ∃ names, assignNames secrets = .ok names ∧
      Shell.source text.toList = some ((dotenvItems secrets names).map fun item =>
        .assign item.1 item.2) := by
  obtain ⟨names, hnames, htext⟩ := toList_renderDotenv h
  refine ⟨names, hnames, ?_⟩
  rw [htext]
  apply Shell.source_assignments
  intro item hitem
  obtain ⟨⟨secret, name⟩, hpair, rfl⟩ := List.mem_map.mp hitem
  exact ⟨name.isName, hnul secret (List.of_mem_zip hpair).1⟩

/-- A value between its quotes is read as one word, the value, and nothing of what follows it; and a
shell that sources a dotenv file assigns the values of the list to the names of its paths, in their
order, and does nothing else. -/
theorem shell_quoting_faithful (u : Unicode) :
    (∀ value : String, '\x00' ∉ value.toList →
      (∃ word, Shell.commands (shellSingleQuote value).toList = some [[word]] ∧
        Shell.text word = value.toList) ∧
      ∀ (s : Shell.Reader) rest, s.mode = .bare →
        s.run ((shellSingleQuote value).toList ++ rest) = (s.quoted value.toList).run rest) ∧
    ∀ (secrets : List (Exported u)) text, renderDotenv secrets = .ok text →
      (∀ secret ∈ secrets, '\x00' ∉ secret.value.toList) →
      ∃ names, assignNames secrets = .ok names ∧ names.length = secrets.length ∧
        Shell.source text.toList = some ((secrets.zip names).map fun item =>
          .assign item.2.text.toList item.1.value.toList) := by
  constructor
  · intro value hnul
    rw [toList_shellSingleQuote]
    refine ⟨⟨_, Shell.commands_quote hnul, ?_⟩, fun s rest hmode => Shell.Reader.run_quote hmode hnul rest⟩
    exact Shell.text_quoted value.toList
  · intro secrets text h hnul
    obtain ⟨names, hnames, hsource⟩ := source_renderDotenv h hnul
    refine ⟨names, hnames, ?_, ?_⟩
    · rw [EnvVarName.assign_length hnames, List.length_map]
    · rw [hsource]
      unfold dotenvItems
      rw [List.map_map]
      rfl

namespace Sample

def motdPath : SecretPath asciiUnicode := ⟨"infra/web/MOTD", "infra/web/MOTD", by decide +kernel⟩

def commandPath : SecretPath asciiUnicode := ⟨"infra/web/COMMAND", "infra/web/COMMAND", by decide +kernel⟩

/-- Both quotes, a backslash and a line feed. -/
def motd : String := "it's \"here\" \\\nand there"

/-- What a shell would carry out outside of quotes. -/
def command : String := "$(id) `id`; exit 1 # '"

def quotedSecrets : List (Exported asciiUnicode) := [⟨motdPath, motd⟩, ⟨commandPath, command⟩]

theorem shell_quoting_faithful_sourced :
    (∃ word, Shell.commands (shellSingleQuote motd).toList = some [[word]] ∧ Shell.text word = motd.toList) ∧
      ∃ text, renderDotenv quotedSecrets = .ok text ∧
        Shell.source text.toList = some [.assign "MOTD".toList motd.toList,
          .assign "COMMAND".toList command.toList] := by
  have hrender : (renderDotenv quotedSecrets).toOption.isSome = true := by decide +kernel
  have hnames : (assignNames quotedSecrets).map (·.map (·.text)) = .ok ["MOTD", "COMMAND"] := by
    decide +kernel
  obtain ⟨hvalue, hfile⟩ := shell_quoting_faithful asciiUnicode
  refine ⟨(hvalue motd (by decide)).1, ?_⟩
  cases htext : renderDotenv quotedSecrets with
  | error error =>
      rw [htext] at hrender
      cases hrender
  | ok text =>
      obtain ⟨names, hassigned, -, hsource⟩ := hfile quotedSecrets text htext (by decide)
      rw [hassigned, Except.map, Except.ok.injEq] at hnames
      obtain ⟨first, others, rfl, hfirst, hothers⟩ := List.map_eq_cons_iff.mp hnames
      obtain ⟨second, rfl, hsecond⟩ := List.map_eq_singleton_iff.mp hothers
      refine ⟨text, rfl, ?_⟩
      rw [hsource, quotedSecrets, List.zip_cons_cons, List.zip_cons_cons, List.zip_nil_right, List.map_cons,
        List.map_singleton, hfirst, hsecond]

end Sample

end Ciphr
