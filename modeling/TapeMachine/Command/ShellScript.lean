import TapeMachine.Command.Shell
import TapeMachine.Host.Basic

/-!
# Shell scripts

The script with which each shell learns how to complete the command. A bash that is too old or that
cannot be found does not understand its script, and then there is a warning.
-/

namespace TapeMachine

namespace Command

namespace Shell

def scriptLines : Shell → List String
  | .bash => [
    "_bfrun_completion() \x7b",
    "    local IFS=$'\\n'",
    "    local response",
    "",
    "    response=$(env COMP_WORDS=\"$\x7bCOMP_WORDS[*]\x7d\" COMP_CWORD=$COMP_CWORD " ++
      "_BFRUN_COMPLETE=bash_complete $1)",
    "",
    "    for completion in $response; do",
    "        IFS=',' read type value <<< \"$completion\"",
    "",
    "        if [[ $type == 'dir' ]]; then",
    "            COMPREPLY=()",
    "            compopt -o dirnames",
    "        elif [[ $type == 'file' ]]; then",
    "            COMPREPLY=()",
    "            compopt -o default",
    "        elif [[ $type == 'plain' ]]; then",
    "            COMPREPLY+=($value)",
    "        fi",
    "    done",
    "",
    "    return 0",
    "\x7d",
    "",
    "_bfrun_completion_setup() \x7b",
    "    complete -o nosort -F _bfrun_completion bfrun",
    "\x7d",
    "",
    "_bfrun_completion_setup;"]
  | .zsh => [
    "#compdef bfrun",
    "",
    "_bfrun_completion() \x7b",
    "    local -a completions",
    "    local -a completions_with_descriptions",
    "    local -a response",
    "    (( ! $+commands[bfrun] )) && return 1",
    "",
    "    response=(\"$\x7b(@f)$(env COMP_WORDS=\"$\x7bwords[*]\x7d\" COMP_CWORD=$((CURRENT-1)) " ++
      "_BFRUN_COMPLETE=zsh_complete bfrun)\x7d\")",
    "",
    "    for type key descr in $\x7bresponse\x7d; do",
    "        if [[ \"$type\" == \"plain\" ]]; then",
    "            if [[ \"$descr\" == \"_\" ]]; then",
    "                completions+=(\"$key\")",
    "            else",
    "                completions_with_descriptions+=(\"$key\":\"$descr\")",
    "            fi",
    "        elif [[ \"$type\" == \"dir\" ]]; then",
    "            _path_files -/",
    "        elif [[ \"$type\" == \"file\" ]]; then",
    "            _path_files -f",
    "        fi",
    "    done",
    "",
    "    if [ -n \"$completions_with_descriptions\" ]; then",
    "        _describe -V unsorted completions_with_descriptions -U",
    "    fi",
    "",
    "    if [ -n \"$completions\" ]; then",
    "        compadd -U -V unsorted -a completions",
    "    fi",
    "\x7d",
    "",
    "if [[ $zsh_eval_context[-1] == loadautofunc ]]; then",
    "    # autoload from fpath, call function directly",
    "    _bfrun_completion \"$@\"",
    "else",
    "    # eval/source/. command, register function for later",
    "    compdef _bfrun_completion bfrun",
    "fi"]
  | .fish => [
    "function _bfrun_completion;",
    "    set -l response (env _BFRUN_COMPLETE=fish_complete COMP_WORDS=(commandline -cp) " ++
      "COMP_CWORD=(commandline -t) bfrun);",
    "",
    "    for completion in $response;",
    "        set -l metadata (string split \",\" $completion);",
    "",
    "        if test $metadata[1] = \"dir\";",
    "            __fish_complete_directories $metadata[2];",
    "        else if test $metadata[1] = \"file\";",
    "            __fish_complete_path $metadata[2];",
    "        else if test $metadata[1] = \"plain\";",
    "            echo $metadata[2];",
    "        end;",
    "    end;",
    "end;",
    "",
    "complete --no-files --command bfrun --arguments " ++
      "\"(_bfrun_completion)\";"]
  | .powershell => [
    "Register-ArgumentCompleter -Native -CommandName bfrun -ScriptBlock \x7b",
    "    param($wordToComplete, $commandAst, $cursorPosition)",
    "",
    "    $before = @($commandAst.CommandElements | Where-Object \x7b",
    "        $_.Extent.EndOffset -lt $cursorPosition",
    "    \x7d)",
    "    $env:COMP_WORDS = $commandAst.ToString()",
    "    $env:COMP_CWORD = $before.Count",
    "    $env:_BFRUN_COMPLETE = \"powershell_complete\"",
    "    $response = @(bfrun)",
    "    Remove-Item Env:COMP_WORDS, Env:COMP_CWORD, Env:_BFRUN_COMPLETE",
    "",
    "    for ($i = 0; $i + 2 -lt $response.Count; $i += 3) \x7b",
    "        $type, $value, $help = $response[$i..($i + 2)]",
    "        if ($type -eq \"plain\") \x7b",
    "            if ($help -eq \"_\") \x7b $help = $value \x7d",
    "            [System.Management.Automation.CompletionResult]::new(",
    "                $value, $value, \"ParameterValue\", $help)",
    "        \x7d",
    "    \x7d",
    "\x7d"]

def script (shell : Shell) : String := String.join (shell.scriptLines.map (· ++ "\n"))

/-- What is to be said about a host whose shell may not understand the script. -/
def warnings (h : Host) : Shell → List String
  | .bash =>
    if h.findsBash then []
    else ["Couldn't detect Bash version, shell completion is not supported.\n"]
  | _ => []

end Shell

end Command

end TapeMachine
