/-! The scripts that tie a shell to its history. A user sources one of them; it finds out whether
it has run before, starts a session, and binds the hooks and the keys of the shell to calls of a
program, for which a placeholder stands. -/

namespace ShellHistory.Dialect

def placeholder : String := "@VELLUM_HOOK@"

def ofLines (lines : List String) : String := String.join (lines.map (· ++ "\n"))

def bashScript : String := ofLines [
  "# vellum shell integration for bash",
  "if [[ -z \"$\x7bbash_preexec_imported:-\x7d\" ]]; then",
  "    echo \"bash_preexec is required! see https://github.com/rcaloras/bash-preexec\" >&2",
  "elif [[ -n \"$\x7b__VELLUM_SETUP:-\x7d\" || ! $- =~ i ]]; then",
  "    true",
  "elif __vellum_env=\"$(@VELLUM_HOOK@ session --shell bash)\"; then",
  "    eval \"$__vellum_env\"",
  "    unset __vellum_env",
  "    __VELLUM_LINE=\"\"",
  "",
  "    __vellum_preexec() \x7b",
  "        @VELLUM_HOOK@ capture -- \"$1\"",
  "    \x7d",
  "    preexec_functions+=(__vellum_preexec)",
  "",
  "    __vellum_precmd() \x7b",
  "        __VELLUM_LINE=\"\"",
  "    \x7d",
  "    precmd_functions+=(__vellum_precmd)",
  "",
  "    __vellum_search() \x7b",
  "        local __vellum_out",
  "        __vellum_out=\"$(@VELLUM_HOOK@ search --shell bash -- \"$\x7bREADLINE_LINE\x7d\")\" || return",
  "        eval \"$__vellum_out\"",
  "    \x7d",
  "",
  "    __vellum_previous() \x7b",
  "        eval \"$(@VELLUM_HOOK@ navigate --shell bash --cursor=\"$\x7b__VELLUM_LINE\x7d\" -- -1 \"$\x7bREADLINE_LINE\x7d\")\"",
  "    \x7d",
  "",
  "    __vellum_next() \x7b",
  "        eval \"$(@VELLUM_HOOK@ navigate --shell bash --cursor=\"$\x7b__VELLUM_LINE\x7d\" -- 1 \"$\x7bREADLINE_LINE\x7d\")\"",
  "    \x7d",
  "",
  "    bind -m emacs -x '\"\\C-r\": __vellum_search'",
  "    bind -m emacs -x '\"\\e[A\": __vellum_previous'",
  "    bind -m emacs -x '\"\\eOA\": __vellum_previous'",
  "    bind -m emacs -x '\"\\e[B\": __vellum_next'",
  "    bind -m emacs -x '\"\\eOB\": __vellum_next'",
  "else",
  "    unset __vellum_env",
  "fi"]

def zshScript : String := ofLines [
  "# vellum shell integration for zsh",
  "if [[ -n \"$\x7b__VELLUM_SETUP:-\x7d\" || ! -o interactive ]]; then",
  "    true",
  "elif __vellum_env=\"$(@VELLUM_HOOK@ session --shell zsh)\"; then",
  "    eval \"$__vellum_env\"",
  "    unset __vellum_env",
  "    typeset -g __VELLUM_LINE=\"\"",
  "",
  "    function __vellum_preexec() \x7b",
  "        \\command @VELLUM_HOOK@ capture -- \"$1\"",
  "    \x7d",
  "    \\builtin typeset -ga preexec_functions",
  "    preexec_functions+=(__vellum_preexec)",
  "",
  "    function __vellum_precmd() \x7b",
  "        __VELLUM_LINE=\"\"",
  "    \x7d",
  "    \\builtin typeset -ga precmd_functions",
  "    precmd_functions+=(__vellum_precmd)",
  "",
  "    function vellum-search-widget() \x7b",
  "        local __vellum_out",
  "        __vellum_out=\"$(@VELLUM_HOOK@ search --shell zsh -- \"$\x7bLBUFFER\x7d\")\"",
  "        local ret=$?",
  "        eval \"$__vellum_out\"",
  "        zle reset-prompt",
  "        return $ret",
  "    \x7d",
  "    zle -N vellum-search-widget",
  "    bindkey -M emacs '^R' vellum-search-widget",
  "",
  "    function __vellum_previous() \x7b",
  "        eval \"$(@VELLUM_HOOK@ navigate --shell zsh --cursor=\"$\x7b__VELLUM_LINE\x7d\" --probe=\"\" -- -1 \"$\x7bLBUFFER\x7d\")\"",
  "    \x7d",
  "",
  "    function __vellum_next() \x7b",
  "        eval \"$(@VELLUM_HOOK@ navigate --shell zsh --cursor=\"$\x7b__VELLUM_LINE\x7d\" --probe=\"\" -- 1 \"$\x7bLBUFFER\x7d\")\"",
  "    \x7d",
  "",
  "    function vellum-up() \x7b",
  "        eval \"$(@VELLUM_HOOK@ navigate --shell zsh --cursor=\"$\x7b__VELLUM_LINE\x7d\" --probe=\"$\x7bLBUFFER\x7d\" -- -1 \"$\x7bLBUFFER\x7d\")\"",
  "    \x7d",
  "",
  "    function vellum-down() \x7b",
  "        eval \"$(@VELLUM_HOOK@ navigate --shell zsh --cursor=\"$\x7b__VELLUM_LINE\x7d\" --probe=\"$\x7bRBUFFER\x7d\" -- 1 \"$\x7bLBUFFER\x7d\")\"",
  "    \x7d",
  "",
  "    zle -N __vellum_previous",
  "    zle -N __vellum_next",
  "    zle -N up-line-or-history vellum-up",
  "    zle -N down-line-or-history vellum-down",
  "    zle -N history-substring-search-up __vellum_previous",
  "    zle -N history-substring-search-down __vellum_next",
  "else",
  "    unset __vellum_env",
  "fi"]

def fishScript : String := ofLines [
  "# vellum shell integration for fish",
  "if status is-interactive; and not set -q __vellum_setup",
  "    set -l __vellum_env (@VELLUM_HOOK@ session --shell fish | string collect)",
  "    if test -n \"$__vellum_env\"",
  "        echo \"$__vellum_env\" | source",
  "        set -g __vellum_line \"\"",
  "",
  "        function __vellum_preexec --on-event fish_preexec",
  "            @VELLUM_HOOK@ capture -- $argv[1]",
  "        end",
  "",
  "        function __vellum_precmd --on-event fish_prompt",
  "            set -g __vellum_line \"\"",
  "        end",
  "",
  "        function __vellum_search",
  "            @VELLUM_HOOK@ search --shell fish -- (commandline | string collect -a) | source",
  "            commandline -f repaint",
  "        end",
  "",
  "        function __vellum_previous",
  "            @VELLUM_HOOK@ navigate --shell fish --cursor=\"$__vellum_line\" -- -1 (commandline | string collect -a) | source",
  "        end",
  "",
  "        function __vellum_next",
  "            @VELLUM_HOOK@ navigate --shell fish --cursor=\"$__vellum_line\" -- 1 (commandline | string collect -a) | source",
  "        end",
  "",
  "        bind \\cr __vellum_search",
  "        bind \\e\\[A __vellum_previous",
  "        bind \\eOA __vellum_previous",
  "        bind \\e\\[B __vellum_next",
  "        bind \\eOB __vellum_next",
  "    end",
  "end"]

end ShellHistory.Dialect
