/-!
The help text of the console.
-/

namespace WordGraph.Console

def heavyRule : String := String.ofList (List.replicate 63 '═')
def lightRule : String := String.ofList (List.replicate 63 '─')

def helpLines : List String :=
  ["",
   heavyRule,
   "                     microdb 命令帮助",
   heavyRule,
   "",
   "语句以单独的 ; 结尾，可以跨多行输入。",
   "模式: n: <名字> 节点   e: <名字> 边   b: <名字> val:0|1 布尔",
   "属性: key:value        谓词: attr<n  attr>n  attr=n  (AND / OR 连接)",
   "",
   "  CREATE n: a Label:Person Name:Alice ;",
   "  CREATEEDGE n: a Name:Alice e: r rel:friend n: b Name:Bob ;",
   "  MATCH n: a Label:Person Salary>2000 AND Age<40 ;",
   "  MATCH n: a Name:Alice e: r rel:friend n: b e: s n: c ;",
   "  MATCH n: a Label:Person RETURN n: a ;",
   "  MODIFYNODE n: a Name:Alice n: c City:Paris b: f val:1 ;",
   "  MODIFYEDGE e: r rel:friend e: c since:2020 b: f val:0 ;",
   "  DELETENODE n: a Name:Alice ;      DELETEEDGE e: r rel:friend ;",
   "  HASPATH n: a Name:Alice n: b Name:Bob ;",
   "  SHORTESTPATH n: a Name:Alice n: b Name:Bob ;",
   "  HASEDGE n: a Name:Alice n: b Name:Bob ;",
   "  COMMONNEIGHBORS n: a Name:Alice n: b Name:Bob ;",
   "  NEIGHBOR n: a Name:Alice ;",
   "  SHOW ;    VISUALIZE ;    CLEAR ;",
   "",
   lightRule,
   "控制台命令",
   lightRule,
   "",
   "  help, h, ?           显示帮助",
   "  quit, exit, q        退出程序（保存快照）",
   "  stats                显示图统计信息",
   "  :save                立即保存快照",
   "",
   heavyRule]

def help : String := String.join (helpLines.map (· ++ "\n"))

end WordGraph.Console
