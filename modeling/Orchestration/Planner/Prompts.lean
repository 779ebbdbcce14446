import Orchestration.Template

/-!
# Prompts

What planners send to a model, as templates. Each names the functions that may be used, shows the form of
the answer, and ends with the goal.
-/

namespace Orchestration.Planner

/-- Lines of a prompt as one text. -/
def promptOf (lines : List String) : Template := ⟨"\n".intercalate lines⟩

/-- Asks for a plan of several steps, written in markup. -/
def markupPrompt : Template := promptOf [
  "Create an XML plan step by step, to satisfy the goal given, with the available functions.",
  "",
  "[AVAILABLE FUNCTIONS]",
  "",
  "\x7b\x7b$available_functions\x7d\x7d",
  "",
  "[END AVAILABLE FUNCTIONS]",
  "",
  "To create a plan, follow these steps:",
  "0. The plan should be as short as possible.",
  "1. From a <goal> create a <plan> as a series of <functions>.",
  "2. A plan has 'INPUT' available in context variables by default.",
  "3. Before using any function in a plan, check that it is present in the [AVAILABLE FUNCTIONS] list. If it is not, do not use it.",
  "4. Only use functions that are required for the given goal.",
  "5. Append an \"END\" XML comment at the end of the plan after the final closing </plan> tag.",
  "6. Always output valid XML that can be parsed by an XML parser.",
  "7. If a plan cannot be created with the [AVAILABLE FUNCTIONS], return <plan />.",
  "",
  "All plans take the form of:",
  "<plan>",
  "    <!-- ... reason for taking step ... -->",
  "    <function.\x7bFullyQualifiedFunctionName\x7d ... />",
  "    <!-- ... reason for taking step ... -->",
  "    <function.\x7bFullyQualifiedFunctionName\x7d ... />",
  "    (... etc ...)",
  "</plan>",
  "<!-- END -->",
  "",
  "To call a function, follow these steps:",
  "1. A function has one or more named parameters and a single 'output' which are all strings. Parameter values should be xml escaped.",
  "2. To save an 'output' from a <function>, to pass into a future <function>, use <function.\x7bFullyQualifiedFunctionName\x7d ... setContextVariable=\"<UNIQUE_VARIABLE_KEY>\"/>",
  "3. To save an 'output' from a <function>, to return as part of a plan result, use <function.\x7bFullyQualifiedFunctionName\x7d ... appendToResult=\"RESULT__<UNIQUE_RESULT_KEY>\"/>",
  "4. Use a '$' to reference a context variable in a parameter, e.g. when `INPUT='world'` the parameter 'Hello $INPUT' will evaluate to `Hello world`.",
  "5. Functions do not have access to the context variables of other functions. Do not attempt to use context variables as arrays or objects. Instead, use available functions to extract specific elements or properties from context variables.",
  "",
  "DO NOT DO THIS, THE PARAMETER VALUE IS NOT XML ESCAPED:",
  "<function.Name4 input=\"$SOME_PREVIOUS_OUTPUT\" parameter_name=\"some value with a <!-- 'comment' in it-->\"/>",
  "",
  "DO NOT DO THIS, THE PARAMETER VALUE IS ATTEMPTING TO USE A CONTEXT VARIABLE AS AN ARRAY/OBJECT:",
  "<function.CallFunction input=\"$OTHER_OUTPUT[1]\"/>",
  "",
  "Here is a valid example of how to call a function \"_Function_.Name\" with a single input and save its output:",
  "<function._Function_.Name input=\"this is my input\" setContextVariable=\"SOME_KEY\"/>",
  "",
  "Here is a valid example of how to call a function \"FunctionName2\" with a single input and return its output as part of the plan result:",
  "<function.FunctionName2 input=\"Hello $INPUT\" appendToResult=\"RESULT__FINAL_ANSWER\"/>",
  "",
  "Here is a valid example of how to call a function \"Name3\" with multiple inputs:",
  "<function.Name3 input=\"$SOME_PREVIOUS_OUTPUT\" parameter_name=\"some value with a &lt;!-- &apos;comment&apos; in it--&gt;\"/>",
  "",
  "Begin!",
  "",
  "<goal>\x7b\x7b$input\x7d\x7d</goal>",
  ""]

/-- Asks for one function to call. -/
def choicePrompt : Template := promptOf [
  "A planner takes a list of functions, a goal, and chooses which function to use.",
  "For each function the list includes details about the input parameters.",
  "[START OF EXAMPLES]",
  "- List of functions:",
  "// Read a file.",
  "FileIOPlugin.ReadAsync",
  "Parameter \"path\": Source file.",
  "// Write a file.",
  "FileIOPlugin.WriteAsync",
  "Parameter \"path\": Destination file. (default value: sample.txt)",
  "Parameter \"content\": File content.",
  "// Get the current time.",
  "TimePlugin.Time",
  "No parameters.",
  "- End list of functions.",
  "Goal: create a file called \"something.txt\".",
  "\x7b\"plan\":\x7b",
  "\"rationale\": \"the list contains a function that allows to create files\",",
  "\"function\": \"FileIOPlugin.WriteAsync\",",
  "\"parameters\": \x7b",
  "\"path\": \"something.txt\",",
  "\"content\": null",
  "\x7d\x7d\x7d",
  "#END-OF-PLAN",
  "[END OF EXAMPLES]",
  "[REAL SCENARIO STARTS HERE]",
  "- List of functions:",
  "\x7b\x7b$available_functions\x7d\x7d",
  "- End list of functions.",
  "Goal: \x7b\x7b$input\x7d\x7d",
  ""]

/-- Asks for a list of subtasks. -/
def subtaskPrompt : Template := promptOf [
  "You are a planner for the Semantic Kernel.",
  "Your job is to create a properly formatted JSON plan step by step, to satisfy the goal given.",
  "Create a list of subtasks based off the [GOAL] provided.",
  "Each subtask must be from within the [AVAILABLE FUNCTIONS] list. Do not use any functions that are not in the list.",
  "Base your decisions on which functions to use from the description and the name of the function.",
  "Sometimes, a function may take arguments. Provide them if necessary.",
  "The plan should be as short as possible.",
  "For example:",
  "",
  "[AVAILABLE FUNCTIONS]",
  "EmailConnector.LookupContactEmail",
  "description: looks up the a contact and retrieves their email address",
  "args:",
  "- name: the name to look up",
  "",
  "WriterPlugin.EmailTo",
  "description: email the input text to a recipient",
  "args:",
  "- input: the text to email",
  "- recipient: the recipient's email address. Multiple addresses may be included if separated by ';'.",
  "",
  "WriterPlugin.Translate",
  "description: translate the input to another language",
  "args:",
  "- input: the text to translate",
  "- language: the language to translate to",
  "",
  "WriterPlugin.Summarize",
  "description: summarize input text",
  "args:",
  "- input: the text to summarize",
  "",
  "FunPlugin.Joke",
  "description: Generate a funny joke",
  "args:",
  "- input: the input to generate a joke about",
  "",
  "[GOAL]",
  "\"Tell a joke about cars. Translate it to Spanish\"",
  "",
  "[OUTPUT]",
  "    \x7b",
  "        \"input\": \"cars\",",
  "        \"subtasks\": [",
  "            \x7b\"function\": \"FunPlugin.Joke\"\x7d,",
  "            \x7b\"function\": \"WriterPlugin.Translate\", \"args\": \x7b\"language\": \"Spanish\"\x7d\x7d",
  "        ]",
  "    \x7d",
  "",
  "[AVAILABLE FUNCTIONS]",
  "\x7b\x7b$available_functions\x7d\x7d",
  "",
  "[GOAL]",
  "\x7b\x7b$goal\x7d\x7d",
  "",
  "[OUTPUT]",
  ""]

/-- Asks for a thought and an action, or for the final answer. -/
def stepwisePrompt : Template := promptOf [
  "[INSTRUCTION]",
  "Answer the following questions as accurately as possible using the provided functions.",
  "",
  "[AVAILABLE FUNCTIONS]",
  "The function definitions below are in the following format:",
  "<functionName>: <description>",
  "  inputs:",
  "    - <parameterName>: <parameter description>",
  "    - ...",
  "",
  "\x7b\x7b$function_descriptions\x7d\x7d",
  "[END AVAILABLE FUNCTIONS]",
  "",
  "[USAGE INSTRUCTIONS]",
  "To use the functions, specify a JSON blob representing an action. The JSON blob should contain an \"action\" key with the name of the function to use, and an \"action_variables\" key with a JSON object of string values to use when calling the function.",
  "Do not call functions directly; they must be invoked through an action.",
  "The \"action_variables\" value should always include an \"input\" key, even if the input value is empty. Additional keys in the \"action_variables\" value should match the defined [PARAMETERS] of the named \"action\" in [AVAILABLE FUNCTIONS].",
  "Dictionary values in \"action_variables\" must be strings and represent the actual values to be passed to the function.",
  "Ensure that the $JSON_BLOB contains only a SINGLE action; do NOT return multiple actions.",
  "IMPORTANT: Use only the available functions listed in the [AVAILABLE FUNCTIONS] section. Do not attempt to use any other functions that are not specified.",
  "",
  "Here is an example of a valid $JSON_BLOB:",
  "\x7b",
  "  \"action\": \"functionName\",",
  "  \"action_variables\": \x7b\"parameterName\": \"some value\", ...\x7d",
  "\x7d",
  "",
  "[END USAGE INSTRUCTIONS]",
  "[END INSTRUCTION]",
  "",
  "[THOUGHT PROCESS]",
  "[QUESTION]",
  "the input question I must answer",
  "[THOUGHT]",
  "To solve this problem, I should carefully analyze the given question and identify the necessary steps. Any facts I discover earlier in my thought process should be repeated here to keep them readily available.",
  "[ACTION]",
  "$JSON_BLOB",
  "[OBSERVATION]",
  "The result of the action will be provided here.",
  "... (These Thought/Action/Observation can repeat until the final answer is reached.)",
  "[FINAL ANSWER]",
  "Once I have gathered all the necessary observations and performed any required actions, I can provide the final answer in a clear and human-readable format.",
  "[END THOUGHT PROCESS]",
  "",
  "Let's break down the problem step by step and think about the best approach. Questions and observations should be followed by a single thought and an optional single action to take.",
  "",
  "Begin!",
  "",
  "[QUESTION]",
  "\x7b\x7b$question\x7d\x7d",
  "\x7b\x7b$agent_scratch_pad\x7d\x7d"]

end Orchestration.Planner
