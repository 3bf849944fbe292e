/-
# Prompts

A prompt is a fixed text around the properties that are asked for, which are shown as JSON with
everything outside printable ASCII escaped.
-/
import PagePlan.Failure
import PagePlan.Json.Writer

namespace PagePlan.Prompt

/-- What a request for a plan says before the properties. -/
def openingLines : List String := [
  "You are an expert at analyzing HTML structure and generating XPath expressions.",
  "",
  "## Task",
  "Analyze the provided HTML and generate an XPath schema that can extract data",
  "matching the requirements schema below. Return ONLY valid JSON, no other text.",
  "",
  "## Requirements Schema (what to extract)",
  "\x60\x60\x60json"]

/-- The form of a plan, with examples. -/
def formatLines : List String := [
  "## XPath Schema Format",
  "",
  "For each field in requirements, generate the corresponding XPath definition:",
  "",
  "1. **For primitive types** (string, integer, number, boolean):",
  "   \x60\x60\x60json",
  "   \x7b",
  "     \"field_name\": \x7b",
  "       \"xpath\": \"//div[@class='example']\",",
  "       \"type\": \"string\",",
  "       \"transform\": \"trim\"",
  "     \x7d",
  "   \x7d",
  "   \x60\x60\x60",
  "",
  "2. **For nested objects**:",
  "   \x60\x60\x60json",
  "   \x7b",
  "     \"author\": \x7b",
  "       \"type\": \"object\",",
  "       \"context_xpath\": \"//div[@class='author']\",",
  "       \"properties\": \x7b",
  "         \"name\": \x7b\"xpath\": \".//span[@class='name']\", \"type\": \"string\"\x7d",
  "       \x7d",
  "     \x7d",
  "   \x7d",
  "   \x60\x60\x60",
  "",
  "3. **For arrays of objects**:",
  "   \x60\x60\x60json",
  "   \x7b",
  "     \"items_list\": \x7b",
  "       \"type\": \"array\",",
  "       \"container_xpath\": \"//div[@class='item']\",",
  "       \"items\": \x7b",
  "         \"name\": \x7b\"xpath\": \".//h3\", \"type\": \"string\", \"transform\": \"trim\"\x7d,",
  "         \"price\": \x7b\"xpath\": \".//span[@class='price']\", \"type\": \"number\", \"transform\": \"to_float\"\x7d",
  "       \x7d",
  "     \x7d",
  "   \x7d",
  "   \x60\x60\x60",
  "",
  "4. **For arrays of strings**:",
  "   \x60\x60\x60json",
  "   \x7b",
  "     \"tags\": \x7b",
  "       \"type\": \"array\",",
  "       \"container_xpath\": \".//a[@class='tag']\",",
  "       \"items\": \x7b",
  "         \"xpath\": \".\",",
  "         \"type\": \"string\",",
  "         \"transform\": \"trim\"",
  "       \x7d",
  "     \x7d",
  "   \x7d",
  "   \x60\x60\x60"]

/-- What makes a good query. -/
def ruleLines : List String := [
  "## XPath Rules",
  "",
  "- Use \x60container_xpath\x60 to identify repeating elements for arrays",
  "- Use relative XPaths (starting with \x60.//\x60 or \x60.\x60) for fields inside arrays and objects",
  "- Do NOT use \x60/text()\x60 - just select the element, we extract text automatically",
  "- Use \x60@attr\x60 to extract attribute values (e.g., \x60@href\x60, \x60@src\x60), especially for fields ending in \x60link\x60 or \x60url\x60",
  "- AVOID dynamic/hashed class names like \x60Box-sc-62in7e-0\x60, \x60css-1a2b3c\x60",
  "- Prefer semantic attributes: \x60@data-testid\x60, \x60@role\x60, \x60@aria-label\x60",
  "- Prefer tag structure: \x60//article//h3/a\x60 over class-based selectors",
  "- Available transforms: \"trim\", \"to_int\", \"to_float\", \"strip_tags\""]

/-- How a plan is to be answered. -/
def closingLines : List String := [
  "",
  "## Output",
  "",
  "Return ONLY the JSON XPath schema. No explanations, no markdown code blocks."]

/-- What a request for the data themselves says before the properties. -/
def directLines : List String := [
  "You are a web data extraction expert.",
  "",
  "## Task",
  "Extract data from the provided HTML according to the JSON schema.",
  "Return ONLY valid JSON, no other text.",
  "STRICTLY FOLLOW the requirements schema provided.",
  "",
  "## Requirements Schema (what to extract)",
  "\x60\x60\x60json"]

/-- Lines as a text, each ended by a line break. -/
def text (lines : List String) : String :=
  String.join (lines.map (· ++ "\n"))

/-- The line that closes the block of properties. -/
def fenceLine : String := "\x60\x60\x60\n"

/-- The properties as a prompt shows them; refused where a key has no text. -/
def block (properties : Value) : Except Failure String :=
  match Json.writeAscii? properties with
  | some s => .ok s
  | none => .error .wrongKind

/-- The request for a plan that extracts some properties. -/
def forPlan (properties : Value) : Except Failure String := do
  return text openingLines ++ (← block properties) ++ "\n" ++ fenceLine ++ "\n" ++
    text formatLines ++ "\n" ++ text ruleLines ++ text closingLines

/-- The request for the data themselves. -/
def forData (properties : Value) : Except Failure String := do
  return text directLines ++ (← block properties) ++ "\n" ++ fenceLine

end PagePlan.Prompt
