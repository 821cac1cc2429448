import FilterQuery.Text

/-!
# The guide

The texts that are printed to explain the query language.  Each is a list of lines.
-/

namespace FilterQuery.Guide

/-- A text made of lines, each with its line end. -/
def page (lines : List String) : String :=
  String.join (lines.map (· ++ "\n"))

/-- The list of categories, with a quick reference. -/
def overview : String := page
  ["SIFT DOCUMENTATION",
   "",
   "Sift compiles filter queries into a backend-agnostic expression tree. Every",
   "query is checked against a schema of fields: their names and labels, types,",
   "allowed operators and named values.",
   "",
   "DOCUMENTATION CATEGORIES",
   "",
   "  syntax            Text grammar: conditions, logic, grouping, lists",
   "  operators         Every operator with keyword and symbol forms",
   "  json              JSON grammar: nested arrays",
   "  types             Field types and the literal forms they accept",
   "  schema            Schema file format",
   "",
   "QUICK REFERENCE",
   "",
   "  age > 18                        Condition",
   "  status = Enabled                Named value",
   "  role in admin, owner            List",
   "  email blank                     Operand-less operator",
   "  a = 1 and (b = 2 or c = 3)      Logic and grouping",
   "",
   "Run 'sift doc <category>' for detailed documentation.",
   "Run 'sift onboard' for a tutorial."]

/-- The text grammar. -/
def conditions : String := page
  ["TEXT GRAMMAR",
   "",
   "CONDITIONS",
   "  <field> <operator> <value>",
   "  <field> <operator> <value>, <value> / <value>     (in, not in)",
   "  <field> <operator>                                (blank, not blank)",
   "",
   "  A field is written by name or label, case-insensitively.",
   "",
   "LOGIC",
   "  a = 1 and b = 2           also: &&",
   "  a = 1 or b = 2            also: ||",
   "",
   "  Logic has no precedence: a chain nests to the right.",
   "    a = 1 and b = 2 or c = 3    is    a = 1 and (b = 2 or c = 3)",
   "",
   "GROUPING",
   "  (a = 1 or b = 2) and c = 3",
   "",
   "VALUES",
   "  Quote values containing spaces or punctuation: \"two words\", 'x/y'",
   "  One quote character is stripped from each end.",
   "",
   "LIMITATIONS",
   "  Keywords are matched before field names, so a field named like a keyword",
   "  (for example \"and\") cannot be used in text queries."]

/-- The operators with their spellings. -/
def operators : String := page
  ["OPERATORS",
   "",
   "  KEYWORD                   SYMBOL   JSON NAME",
   "  equal                     =        Equal",
   "  not equal                 !=       NotEqual",
   "  greater than              >        GreaterThan",
   "  greater than or equal     >=       GreaterThanOrEqual",
   "  less than                 <        LessThan",
   "  less than or equal        <=       LessThanOrEqual",
   "  blank                     []       Blank",
   "  not blank                 ![]      NotBlank",
   "  contain                   ~        Contain",
   "  not contain               !~       NotContain",
   "  start with                ~*       StartWith",
   "  not start with            !~*      NotStartWith",
   "  end with                  *~       EndWith",
   "  not end with              !*~      NotEndWith",
   "  in                                 In",
   "  not in                             NotIn",
   "",
   "  blank and not blank take no value.",
   "  in and not in take a list separated by \",\" or \"/\".",
   "  A field only accepts the operators its schema lists."]

/-- The array grammar. -/
def arrays : String := page
  ["JSON GRAMMAR",
   "",
   "LEAF",
   "  [\"<field>\", \"<operator>\", <value>]",
   "  [\"<field>\", \"<operator>\", [<value>, ...]]",
   "  [\"<field>\", \"Blank\", \"\"]",
   "",
   "LOGIC",
   "  [\"And\", [<expression>, <expression>, ...]]",
   "  [\"Or\",  [<expression>, <expression>, ...]]",
   "",
   "  A logic node keeps all of its children in one list.",
   "",
   "VALUES",
   "  Strings, numbers, booleans and null (the empty value).",
   "  A string that is not a single literal is taken whole for string fields:",
   "    [\"title\", \"Contain\", \"two words\"]",
   "",
   "EMPTY QUERY",
   "  []"]

/-- The field types with their literals. -/
def types : String := page
  ["FIELD TYPES",
   "",
   "  TYPE        LITERALS                            COMPILED TO",
   "  String      any text, quotes stripped           string",
   "  Number      12, -3.5                            64-bit float",
   "  Boolean     true, false (any case)              boolean",
   "  Date        2024-01-31                          date",
   "  DateTime    2024-01-31 09:30, 2024-01-31 09:30:15",
   "                                                  date and time",
   "  Time        09:30, 09:30:15, 1h 15m, 90s        seconds",
   "",
   "  Each type has an array form (StringArray, NumberArray, ...). Values for",
   "  array fields are single elements of the element type."]

/-- The format of schema files. -/
def schemas : String := page
  ["SCHEMA FILE",
   "",
   "  \x7b",
   "    \"fields\": [",
   "      \x7b",
   "        \"name\": \"status\",                 canonical name, used in output",
   "        \"label\": \"Status\",                optional display name",
   "        \"type\": \"Boolean\",                see 'sift doc types'",
   "        \"operators\": [\"Equal\"],           see 'sift doc operators'",
   "        \"values\": [                       optional named values",
   "          \x7b\"name\": \"Enabled\", \"value\": true\x7d",
   "        ]",
   "      \x7d",
   "    ]",
   "  \x7d"]

/-- The introduction, step by step. -/
def tutorial : String := page
  ["WELCOME TO SIFT",
   "",
   "Sift compiles filter queries against a field schema into an expression tree.",
   "",
   "STEP 1: WRITE A SCHEMA",
   "----------------------",
   "Describe the fields a query may use, their types and allowed operators.",
   "",
   "  cat > schema.json <<'EOF'",
   "  \x7b\"fields\": [",
   "    \x7b\"name\": \"status\", \"label\": \"Status\", \"type\": \"Boolean\",",
   "     \"operators\": [\"Equal\", \"NotEqual\"],",
   "     \"values\": [\x7b\"name\": \"Enabled\", \"value\": true\x7d, " ++
     "\x7b\"name\": \"Disabled\", \"value\": false\x7d]\x7d,",
   "    \x7b\"name\": \"age\", \"label\": \"Age\", \"type\": \"Number\",",
   "     \"operators\": [\"Equal\", \"GreaterThan\", \"LessThan\", \"In\"]\x7d,",
   "    \x7b\"name\": \"email\", \"label\": \"Email\", \"type\": \"String\",",
   "     \"operators\": [\"EndWith\", \"Blank\", \"NotBlank\"]\x7d",
   "  ]\x7d",
   "  EOF",
   "",
   "STEP 2: A SINGLE CONDITION",
   "--------------------------",
   "Field, operator, value. Labels and names are case-insensitive.",
   "",
   "  sift check 'age > 18' --schema schema.json",
   "  => [\"age\",\"GreaterThan\",18.0]",
   "",
   "STEP 3: LOOKUPS",
   "---------------",
   "Named values are replaced before type checking.",
   "",
   "  sift check 'Status = Enabled' --schema schema.json",
   "  => [\"status\",\"Equal\",true]",
   "",
   "STEP 4: LISTS AND OPERAND-LESS OPERATORS",
   "----------------------------------------",
   "  sift check 'age in 18, 21, 30' --schema schema.json",
   "  => [\"age\",\"In\",[18.0,21.0,30.0]]",
   "",
   "  sift check 'email blank' --schema schema.json",
   "  => [\"email\",\"Blank\",\"\"]",
   "",
   "STEP 5: COMBINING",
   "-----------------",
   "  sift check '(age < 18 or age > 65) and status = Enabled' --schema schema.json",
   "",
   "STEP 6: JSON QUERIES",
   "--------------------",
   "  sift check --json '[\"Or\", [[\"age\", \"<\", 18], " ++
     "[\"email\", \"EndWith\", \"@example.com\"]]]' \\",
   "    --schema schema.json",
   "",
   "STEP 7: VALIDATION ONLY",
   "-----------------------",
   "  sift check --syntax-only 'age > eighteen' --schema schema.json",
   "  => Invalid query: invalid token 'eighteen'",
   "",
   "NEXT STEPS",
   "----------",
   "  sift docs              List all documentation categories",
   "  sift doc operators     All operators",
   "  sift doc types         Field types and literal forms"]

/-! ## Categories

Each category has a page of its own and is known by one or two names, in any letter case. -/

/-- A topic of the guide. -/
inductive Category
  | conditions
  | operators
  | arrays
  | types
  | schemas
  deriving DecidableEq

namespace Category

/-- The category with a given name. -/
def ofName? (name : String) : Option Category :=
  match String.ofList (foldAscii name.toList) with
  | "syntax" | "text" => some conditions
  | "operators" | "ops" => some operators
  | "json" => some arrays
  | "types" | "type" => some types
  | "schema" | "metadata" => some schemas
  | _ => none

/-- The page of a category. -/
def page : Category → String
  | conditions => Guide.conditions
  | operators => Guide.operators
  | arrays => Guide.arrays
  | types => Guide.types
  | schemas => Guide.schemas

end Category

/-- The page of the category with a given name. -/
def categoryPage? (name : String) : Option String :=
  (Category.ofName? name).map Category.page

/-- The message for a name that no category has. -/
def unknownCategory (name : String) : String :=
  "Unknown category: '" ++ name ++ "'\nRun 'sift docs' to see available categories."

end FilterQuery.Guide
